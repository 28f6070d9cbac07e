import GoLua.Lower.Builtin
import GoLua.Proofs.Built.Convert

/-!
# Predeclared functions

How calls of predeclared functions are put together. Each argument is lowered once at most, wherever
the rule picks it from.
-/

namespace GoLua.Built

open Lua

variable {S : Setting} {I : NodeId → Prop} {w : Nat} {call : Expr} {args : List Expr}

/-- What arguments cost together. -/
abbrev argsPrice (S : Setting) (args : List Expr) : Nat :=
  sumOf S.prices.price args

/-- One argument costs at most what they cost together. -/
theorem price_le_args {i : Nat} {a : Expr} (h : args[i]? = some a) :
    S.prices.price a ≤ argsPrice S args :=
  le_sumOf_of_mem (List.mem_of_getElem? h)

/-- Two arguments at different places cost at most what they cost together. -/
theorem price_add_price_le_args {a b : Expr} {i j : Nat} (hij : i < j) (ha : args[i]? = some a)
    (hb : args[j]? = some b) : S.prices.price a + S.prices.price b ≤ argsPrice S args := by
  induction args generalizing i j with
  | nil => simp at ha
  | cons x rest ih =>
    obtain ⟨j, rfl⟩ : ∃ k, j = k + 1 := ⟨j - 1, by omega⟩
    rw [argsPrice, sumOf_cons]
    cases i with
    | zero =>
      obtain rfl : x = a := by simpa using ha
      exact Nat.add_le_add_left (price_le_args (by simpa using hb)) _
    | succ i =>
      have hrest := ih (Nat.lt_of_succ_lt_succ hij) (by simpa using ha) (by simpa using hb)
      exact Nat.le_trans hrest (Nat.le_add_left _ _)

/-! ### Functions -/

/-- Fetching an argument costs nothing, and it is one of the call's. -/
theorem builtinArg (name : String) (args : List Expr) (i : Nat) :
    Built S I 0 (Lower.builtinArg call name args i) fun a => args[i]? = some a := by
  unfold Lower.builtinArg
  split
  · exact .pure ‹_›
  · exact unsupported

theorem fixedLength {operand : Expr} (h : operand.Fits S I) (len : Nat) :
    Builds S I (S.prices.price operand) (Lower.fixedLength S.self operand len) :=
  renderOne h false _

/-- A fresh value costs nothing. -/
theorem newValue (h : I call.id) : Builds S I w (Lower.newValue call) := by
  refine (typeOf h).free fun type _ => ?_
  split
  · exact unsupported
  · refine (zeroFor _).free fun zero _ => ?_
    exact .pure trivial

/-- The length and the capacity are paid for once each. -/
theorem makeSlice (h : ∀ a ∈ args, a.Fits S I) (elem : GoType) :
    Builds S I (argsPrice S args) (Lower.makeSlice S.self call args elem) := by
  refine (zeroFor elem).free fun zero _ => (builtinArg "make" args 1).free fun len hlen => ?_
  have hfits := h len (List.mem_of_getElem? hlen)
  dsimp only
  split
  · next cap hcap =>
    have hcapFits := h cap (List.mem_of_getElem? hcap)
    exact (renderTwo hfits hcapFits false _).spending
      (price_add_price_le_args (Nat.lt_succ_self 1) hlen hcap)
  · exact (renderOne hfits false _).spending (price_le_args hlen)

/-- The size of a map is paid for once, though its check repeats it. -/
theorem makeMap (h : ∀ a ∈ args, a.Fits S I) (key elem : GoType) :
    Builds S I (argsPrice S args) (Lower.makeMap S.self args key elem) := by
  unfold Lower.makeMap
  dsimp only
  split
  · exact .pure trivial
  · next size hsize =>
    have hfits := h size (List.mem_of_getElem? hsize)
    refine (isConstant hfits.id).free fun constant _ => ite (fun _ => .pure trivial) fun _ => ?_
    exact (renderOne hfits true _).spending (price_le_args hsize)

theorem makeChan (h : ∀ a ∈ args, a.Fits S I) (elem : GoType) :
    Builds S I (argsPrice S args) (Lower.makeChan S.self args elem) := by
  unfold Lower.makeChan
  split
  · next size hsize =>
    exact (renderOne (h size (List.mem_of_getElem? hsize)) false _).spending (price_le_args hsize)
  · exact .pure trivial

/-- The type that is made is an argument too, but nothing is paid for it. -/
theorem make (h : ∀ a ∈ args, a.Fits S I) :
    Builds S I (argsPrice S args) (Lower.make S.self call args) := by
  refine (builtinArg "make" args 0).free fun made hmade => ?_
  refine (typeOf (h made (List.mem_of_getElem? hmade)).id).free fun type _ => ?_
  split
  · exact makeSlice h _
  · exact makeMap h _ _
  · exact makeChan h _
  · exact unsupported

/-- A length costs at most its argument. -/
theorem len (h : ∀ a ∈ args, a.Fits S I) :
    Builds S I (argsPrice S args) (Lower.len S.self call args) := by
  refine (builtinArg "len" args 0).free fun operand hoperand => ?_
  have hfits := h operand (List.mem_of_getElem? hoperand)
  have hprice := price_le_args (S := S) hoperand
  refine (typeOf hfits.id).free fun type _ => ?_
  split
  · exact (fixedLength hfits _).spending hprice
  split
  · exact ite (fun _ => (renderOne hfits true _).spending hprice) fun _ => unsupported
  · exact (renderOne hfits true _).spending hprice
  · exact (renderOne hfits true _).spending hprice
  · exact (renderOne hfits true _).spending hprice
  · exact unsupported

/-- A capacity does too. -/
theorem cap (h : ∀ a ∈ args, a.Fits S I) :
    Builds S I (argsPrice S args) (Lower.cap S.self call args) := by
  refine (builtinArg "cap" args 0).free fun operand hoperand => ?_
  have hfits := h operand (List.mem_of_getElem? hoperand)
  have hprice := price_le_args (S := S) hoperand
  refine (typeOf hfits.id).free fun type _ => ?_
  split
  · exact (fixedLength hfits _).spending hprice
  split
  · exact (renderOne hfits false _).spending hprice
  · exact (renderOne hfits false _).spending hprice
  · exact unsupported

theorem appendAll {slice more : Expr} (hslice : slice.Fits S I) (hmore : more.Fits S I) :
    Builds S I (S.prices.price slice + S.prices.price more)
      (Lower.appendAll S.self slice more) :=
  (typeOf hmore.id).free fun _ _ => renderTwo hslice hmore false _

/-- Fragments that are joined have been lowered already. -/
theorem renderLowered (fragments : List Fragment) (pattern : String) :
    Builds S I w (GoLua.render S.self pattern (fragments.map .lowered)) := by
  have hfits : ∀ o ∈ fragments.map Operand.lowered, o.Fits S I := by
    intro o ho
    obtain ⟨fragment, -, rfl⟩ := List.mem_map.mp ho
    trivial
  have hcost : sumOf S.price (fragments.map Operand.lowered) = 0 := by
    rw [sumOf_map]
    exact sumOf_eq_zero fun _ _ => rfl
  exact (renderAs _ hfits false pattern).spending (hcost ▸ Nat.zero_le w)

/-- Each of the appended values is paid for once. -/
theorem append (hcall : I call.id) (h : ∀ a ∈ args, a.Fits S I) (ellipsis : Bool) :
    Builds S I (argsPrice S args) (Lower.append S.self call args ellipsis) := by
  unfold Lower.append
  split
  · exact unsupported
  · next slice =>
    exact (lower (h slice (by simp)) none).spending (price_le_args (i := 0) rfl)
  · next slice more rest =>
    refine (typeOf hcall).free fun type _ => ?_
    split
    · refine ite (fun _ => ?_) fun _ => ?_
      · refine (appendAll (h slice (by simp)) (h more (by simp))).spending ?_
        exact price_add_price_le_args Nat.zero_lt_one rfl rfl
      · refine (lower (h slice (by simp)) none).seq (price_le_args (i := 0) rfl) fun first _ => ?_
        refine (mapM fun a ha => implicitCopy (h a (List.mem_cons_of_mem _ ha)) _).seq ?_
          fun values _ => renderLowered _ _
        simp only [argsPrice, sumOf_cons]
        omega
    · exact unsupported

/-- The map and the key are. -/
theorem delete (h : ∀ a ∈ args, a.Fits S I) :
    Builds S I (argsPrice S args) (Lower.delete S.self call args) := by
  refine (builtinArg "delete" args 0).free fun map hmap => ?_
  refine (builtinArg "delete" args 1).free fun key hkey => ?_
  have hmapFits := h map (List.mem_of_getElem? hmap)
  have hkeyFits := h key (List.mem_of_getElem? hkey)
  have hcost := price_add_price_le_args (S := S) Nat.zero_lt_one hmap hkey
  refine (typeOf hmapFits.id).free fun type _ => ?_
  split
  · refine (lower hmapFits none).seq (by omega) fun mapText _ => ?_
    refine (mapKey hkeyFits _).seq (by omega) fun keyText _ => ?_
    exact renderLowered [mapText, keyText] _
  · exact unsupported

/-- And both slices of a copy. -/
theorem copy (h : ∀ a ∈ args, a.Fits S I) :
    Builds S I (argsPrice S args) (Lower.copy S.self call args) := by
  refine (builtinArg "copy" args 0).free fun target htarget => ?_
  refine (builtinArg "copy" args 1).free fun source hsource => ?_
  have htargetFits := h target (List.mem_of_getElem? htarget)
  have hsourceFits := h source (List.mem_of_getElem? hsource)
  refine (typeOf hsourceFits.id).free fun type _ => ?_
  exact (renderTwo htargetFits hsourceFits false _).spending
    (price_add_price_le_args Nat.zero_lt_one htarget hsource)

theorem print (h : ∀ a ∈ args, a.Fits S I) (helper : String) :
    Builds S I (argsPrice S args) (Lower.print S.self helper args) := by
  refine (mapM fun a ha => ?_).seq (Nat.le_refl _) fun texts _ => .pure trivial
  exact (lower (h a ha) none).map Fragment.text fun _ _ => trivial

theorem complexOf (h : ∀ a ∈ args, a.Fits S I) :
    Builds S I (argsPrice S args) (Lower.complexOf S.self call args) := by
  refine (builtinArg "complex" args 0).free fun re hre => ?_
  refine (builtinArg "complex" args 1).free fun im him => ?_
  have hcost := price_add_price_le_args (S := S) Nat.zero_lt_one hre him
  refine (implicit (h re (List.mem_of_getElem? hre)) _).seq (by omega) fun reText _ => ?_
  exact (implicit (h im (List.mem_of_getElem? him)) _).seq (by omega) fun imText _ => .pure trivial

/-- A builtin function costs at most its arguments. -/
theorem builtin (hcall : I call.id) (h : ∀ a ∈ args, a.Fits S I) (name : String) (ellipsis : Bool) :
    Builds S I (argsPrice S args) (Lower.builtin S.self call name args ellipsis) := by
  have hone (pattern : String) : Builds S I (argsPrice S args) (do
      GoLua.render S.self pattern [← Lower.builtinArg call name args 0]) := by
    refine (builtinArg name args 0).free fun a ha => ?_
    exact (renderOne (h a (List.mem_of_getElem? ha)) false pattern).spending (price_le_args ha)
  -- One case for each function. Those of one argument write a pattern around it.
  unfold Lower.builtin
  split
  · exact newValue hcall
  · exact make h
  · exact len h
  · exact cap h
  · refine (builtinArg _ args 0).free fun a ha => ?_
    refine (implicit (h a (List.mem_of_getElem? ha)) _).seq (price_le_args ha) fun value _ => ?_
    exact .pure trivial
  · exact append hcall h ellipsis
  · exact delete h
  · exact copy h
  · exact print h _
  · exact print h _
  · exact complexOf h
  · exact hone _
  · exact hone _
  · exact .pure trivial
  · exact hone _
  · exact (Built.fail fun _ _ h => by cases h).spending (Nat.zero_le _)

end GoLua.Built
