import GoLua.Lower.Builtin
import GoLua.Lower.Host.Method
import GoLua.Proofs.Written.Selector

/-!
# Predeclared functions and methods of the host keep to the vocabulary

Zero values and names of types are inserted into patterns. A property of a host object may be named by
a constant of the program, which then belongs to the vocabulary. The pattern of an `append` has as many
placeholders as there are operands; its shape is found by induction.
-/

namespace GoLua

open Lua Template

section

variable {V : Vocabulary} {env : Env} {s : FunctionState} {self : Lowering} {e call : Expr}
  {args : List Expr}

/-! ### The pattern of an `append` -/

/-- A comma, a blank and a placeholder, `n` times. -/
def morePlaceholders (n : Nat) : List Char :=
  (List.replicate n [',', ' ', '%', 'e']).flatten

/-- Several placeholders, with commas in between. -/
theorem toList_placeholders (n : Nat) :
    (Text.commaSeparated (List.replicate (n + 1) "%e")).toList = '%' :: 'e' :: morePlaceholders n := by
  induction n with
  | zero => rfl
  | succ n ih =>
    rw [Text.commaSeparated, List.replicate_succ, List.replicate_succ, String.intercalate_cons_cons,
      ← List.replicate_succ]
    simp only [String.toList_append]
    rw [show (", ".intercalate (List.replicate (n + 1) "%e")).toList = _ from ih]
    rfl

/-- Each placeholder without a number takes the next operand. -/
theorem atomsFrom_placeholders {count n running : Nat} (h : running + n ≤ count) :
    (cutText count running none (morePlaceholders n ++ [')'])).bind
        (fun r => atomsOf (List.replicate count .value) r.1) =
      some ((List.replicate n [.char ',', .char ' ', .hole true false]).flatten ++ [.char ')']) := by
  -- By induction on the number of placeholders; each takes the next operand.
  induction n generalizing running with
  | zero => rfl
  | succ n ih =>
    have hlt : running < count := by omega
    have hrest := @ih (running + 1) (by omega)
    obtain ⟨⟨items, next⟩, hitems, hatoms⟩ := Option.bind_eq_some_iff.mp hrest
    have hcut : cutText count running none (morePlaceholders (n + 1) ++ [')']) =
        some (.char ',' :: .char ' ' :: .place [] running .expression :: items, next) := by
      change cutText count running none (',' :: ' ' :: '%' :: 'e' :: (morePlaceholders n ++ [')'])) = _
      simp [cutText, numberedOperand, Tag.ofLetter?, hlt, hitems]
    have hshape : (List.replicate count OperandShape.value)[running]? = some .value := by
      simp [hlt]
    rw [hcut]
    simp only [Option.bind_some, atomsOf, hshape, hatoms]
    rfl

/-- Inside of brackets, commas and holes leave everything as it is. -/
theorem scan_placeholders (n : Nat) (flat : Bool) :
    scan ⟨[('(', true)], flat, .hole⟩
      ((List.replicate n [.char ',', .char ' ', .hole true false]).flatten ++ [.char ')']) =
        some true := by
  induction n generalizing flat with
  | zero => cases flat <;> rfl
  | succ n ih =>
    rw [List.replicate_succ, List.flatten_cons, List.append_assoc, ← ih false]
    cases flat <;> rfl

/-- The pattern of `append` is flat for any number of operands: one placeholder each, all inside the
call. -/
theorem patternFlat_append (n : Nat) :
    (patternFlat (List.replicate (n + 1) .value) [.text (Support.append ++ "(" ++
      Text.commaSeparated (List.replicate (n + 1) "%e") ++ ")")]).any (false || ·) := by
  -- The count is not known, so the pattern is cut at its first placeholder and the rest is
  -- `atomsFrom_placeholders`.
  have htext : (Support.append ++ "(" ++ Text.commaSeparated (List.replicate (n + 1) "%e") ++
      ")").toList = "append(%e".toList ++ (morePlaceholders n ++ [')']) := by
    simp only [String.toList_append, toList_placeholders, List.append_assoc, List.cons_append]
    rfl
  obtain ⟨⟨items, next⟩, hitems, hatoms⟩ := Option.bind_eq_some_iff.mp
    (atomsFrom_placeholders (show 1 + n ≤ n + 1 by omega))
  have hcut : cutText (n + 1) 0 none ("append(%e".toList ++ (morePlaceholders n ++ [')'])) =
      some ("append(".toList.map .char ++ .place [] 0 .expression :: items, next) := by
    change cutText (n + 1) 0 none ('a' :: 'p' :: 'p' :: 'e' :: 'n' :: 'd' :: '(' :: '%' :: 'e' ::
      (morePlaceholders n ++ [')'])) = _
    simp [cutText, numberedOperand, Tag.ofLetter?, hitems]
  have hatoms : atomsOf (List.replicate (n + 1) .value)
      ("append(".toList.map .char ++ .place [] 0 .expression :: items) =
        some ("append(".toList.map .char ++ .hole true false ::
          ((List.replicate n [.char ',', .char ' ', .hole true false]).flatten ++ [.char ')'])) := by
    rw [atomsOf_append, atomsOf, hatoms]
    rfl
  have hscan : scan {} ("append(".toList.map .char ++ .hole true false ::
      ((List.replicate n [.char ',', .char ' ', .hole true false]).flatten ++ [.char ')'])) =
        some true :=
    scan_placeholders n true
  have hcount : (List.replicate (n + 1) OperandShape.value).length = n + 1 := List.length_replicate
  rw [patternFlat, atomsFrom, hcount, htext, hcut]
  simp only [Option.bind_some, hatoms, atomsFrom, Option.map_some, List.append_nil, hscan]
  rfl

namespace Delivers

section

variable {β : Type} {R : FunctionState → β → Prop}

/-- An argument that is there belongs to the call. -/
theorem builtinArg (h : ∀ a ∈ args, a.Settles V env s) {name : String} {i : Nat} {k : Expr → LowerM β}
    (rest : ∀ a, a.Settles V env s → Delivers V env s (k a) R) :
    Delivers V env s (Lower.builtinArg call name args i >>= k) R := by
  unfold Lower.builtinArg
  cases ha : args[i]? with
  | none => exact Delivers.bind (Q := fun _ _ => False) unsupported fun _ _ _ h => h.elim
  | some a =>
    rw [pure_bind]
    exact rest a (h a (List.mem_of_getElem? ha))

/-- A missing argument of a host method is an internal error. -/
theorem hostArg (h : ∀ a ∈ args, a.Settles V env s) {i : Nat} {k : Expr → LowerM β}
    (rest : ∀ a, a.Settles V env s → args[i]? = some a → Delivers V env s (k a) R) :
    Delivers V env s (Lower.hostArg call args i >>= k) R := by
  unfold Lower.hostArg
  cases ha : args[i]? with
  | none => exact Delivers.bind (Q := fun _ _ => False) unsupported fun _ _ _ h => h.elim
  | some a =>
    rw [pure_bind]
    exact rest a (h a (List.mem_of_getElem? ha)) ha

/-- A constant that can stand behind a dot is a name of the vocabulary, where names matter because it is
a key. -/
theorem nameConstant (hkey : IsKey V env e) {k : Option String → LowerM β}
    (unnamed : Delivers V env s (k none) R)
    (named : ∀ name, V.name name → isName name → Delivers V env s (k (some name)) R) :
    Delivers V env s (Lower.nameConstant? e >>= k) R := by
  unfold Lower.nameConstant?
  rw [bind_assoc]
  refine view fun hs => ?_
  rw [pure_bind]
  cases hname : ((env.constant? s e.id).bind Constant.toString?).filter isName with
  -- The name is the value of the constant, and what is known of it depends on whether the overlay
  -- holds constants of its own.
  | none => exact unnamed
  | some name =>
    obtain ⟨htext, hspelled⟩ := Option.filter_eq_some_iff.mp hname
    obtain ⟨c, hc, htext⟩ := Option.bind_eq_some_iff.mp htext
    refine named name ?_ hspelled
    by_cases hstrict : V.strict
    · rw [Env.constant?, (hs.closed hstrict).constants, Option.none_or] at hc
      exact hkey hstrict c hc name htext hspelled
    · exact V.spelled hstrict hspelled

end

section

variable (hself : Lowers V self) (henv : env.Plain V)
include hself henv

/-! ### Methods of the host -/

/-- A property is a name behind a dot, or any other key in brackets. -/
theorem property {object : String} (hobject : IsText V true s object) {key : Expr}
    (hkey : key.Settles V env s) (hnamed : IsKey V env key) :
    Delivers V env s (Lower.property self object key) (IsText V true) := by
  refine nameConstant hnamed ?_ fun name hname hspelled => .pure ?_
  · refine (hself.sound henv hkey none).bind fun s' f hgrows hf => .pure ?_
    have hhead : (Lower.propertyIndex f.text).toList.head?.any isNameChar = false := by
      simp [Lower.propertyIndex, String.toList_append]
      rfl
    exact emits_joined [.put (hobject.mono hgrows), .tail (emits_propertyIndex hf.text) hhead] rfl rfl
  · exact emits_joined [.put hobject, .text ".", .put (.name hname (isBinder_of_isName hspelled))] rfl
      rfl

/-- The arguments a host method passes on are texts with commas in between. -/
theorem passedArgs (h : ∀ a ∈ args, a.Settles V env s) (start : Nat) (ellipsis : Bool) :
    Delivers V env s (Lower.passedArgs self call args start ellipsis) (IsText V false) := by
  refine ite (fun _ => hostArg h fun a ha _ => ?_) fun _ => ?_
  · refine (externalized hself henv ha).bind fun s' f _ hf => .pure ?_
    have htext : IsText V true s' ("table.unpack(" ++ f.text ++ ")") :=
      emits_joined [.text "table.unpack(", .put hf.text, .text ")"] rfl rfl
    exact htext.loose
  · exact externalizedArgs hself henv fun a ha => h a (List.mem_of_mem_drop ha)

/-- A call of a property names it in its first argument. -/
theorem callProperty {recv : Fragment} (hrecv : IsSound V s recv) (h : ∀ a ∈ args, a.Settles V env s)
    (hkeys : ∀ key, args[0]? = some key → IsKey V env key) (ellipsis : Bool) :
    Delivers V env s (Lower.callProperty self call recv args ellipsis) (IsSound V) := by
  have hmono {s' : FunctionState} (hgrows : Grows s s') : ∀ a ∈ args, a.Settles V env s' :=
    fun a ha => (h a ha).mono hgrows
  refine hostArg h fun name hname hfirst => nameConstant (hkeys name hfirst) ?_ fun id hid hspelled => ?_
  · refine (hself.sound henv hname none).bind fun s₁ key hgrows₁ hkey => ?_
    refine (passedArgs hself henv (hmono hgrows₁) 1 ellipsis).bind fun s₂ rest hgrows₂ hrest => ?_
    have hrecv := hrecv.mono (hgrows₁.trans hgrows₂)
    have hkey := hkey.mono hgrows₂
    -- Without arguments there is no comma, and what is passed does not go on with the receiver.
    have hpassed : ∃ tail, (patternFlat [.value, .value, .text false tail]
        [.text ("%1e" ++ Lower.propertyIndex "%2e" ++ "(%1e" ++ Lower.separator rest ++ "%3s)")]).any
          (false || ·) ∧ Operand.IsShaped V env s₂ (.text rest) (.text false tail) := by
      by_cases hempty : rest.isEmpty
      · have hseparator : Lower.separator rest = "" := if_pos hempty
        obtain rfl : rest = "" := String.isEmpty_iff.mp hempty
        exact ⟨true, by decide +kernel, hrest, fun _ => rfl⟩
      · have hseparator : Lower.separator rest = ", " := if_neg hempty
        rw [hseparator]
        exact ⟨false, by decide +kernel, .text hrest⟩
    obtain ⟨tail, hflat, hrest⟩ := hpassed
    exact renderFixed hself henv _ (.cons (.lowered hrecv) (.cons (.lowered hkey) (.cons hrest .nil)))
      hflat
  · refine (passedArgs hself henv h 1 ellipsis).bind fun s' rest hgrows hrest => .pure (.atom ?_)
    exact emits_joined [.put (hrecv.mono hgrows).callable, .text ":",
      .put (.name hid (isBinder_of_isName hspelled)), .text "(", .put hrest, .text ")"] rfl rfl

/-- Every method of a host object writes a sound text; the four that name a property need a key that
can be. -/
theorem hostMethod {recv : Fragment} (hrecv : IsSound V s recv) (h : ∀ a ∈ args, a.Settles V env s)
    {method : String} (hkeys : ["Get", "Set", "Delete", "Call"].contains method →
      ∀ key, args[0]? = some key → IsKey V env key) (ellipsis : Bool) :
    Delivers V env s (Lower.hostMethod self call recv method args ellipsis) (IsSound V) := by
  have hobject : IsText V true s recv.callable := hrecv.callable
  have hobject' {s' : FunctionState} (hgrows : Grows s s') : IsText V true s' recv.callable :=
    hobject.mono hgrows
  -- One case for each method, in the order of the function.
  unfold Lower.hostMethod
  dsimp only
  split
  · refine hostArg h fun key hkey hfirst => ?_
    refine (property hself henv hobject hkey (hkeys rfl key hfirst)).bind fun s' text _ htext => ?_
    exact .pure (.atom htext)
  · refine hostArg h fun key hkey hfirst => hostArg h fun value hvalue _ => ?_
    refine (property hself henv hobject hkey (hkeys rfl key hfirst)).bind fun s₁ target hgrows₁ htarget => ?_
    refine (externalized hself henv (hvalue.mono hgrows₁)).bind fun s₂ f hgrows₂ hf => ?_
    exact assigned (htarget.mono hgrows₂).loose hf.text
  · refine hostArg h fun key hkey hfirst => ?_
    refine (property hself henv hobject hkey (hkeys rfl key hfirst)).bind fun s' text _ htext => ?_
    exact assigned htext.loose (emits_text rfl).loose
  · exact .pure (.atom (emits_joined [.text Support.parseInt, .text "(#", .put hobject, .text ")"]
      rfl rfl))
  · refine hostArg h fun key hkey _ => ?_
    exact renderFixed hself henv [.text true false, .value]
      (.cons (.text hobject) (.cons (.expr hkey) .nil)) rfl
  · refine hostArg h fun index hindex _ => hostArg h fun value hvalue _ => ?_
    refine (hself.sound henv hindex none).bind fun s₁ place hgrows₁ hplace => ?_
    refine (externalized hself henv (hvalue.mono hgrows₁)).bind fun s₂ f hgrows₂ hf => ?_
    have htarget : IsText V true s₂ (recv.callable ++ "[" ++ place.text ++ "]") :=
      emits_joined [.put (hobject' (hgrows₁.trans hgrows₂)), .text "[",
        .put (hplace.mono hgrows₂).text, .text "]"] rfl rfl
    exact assigned htarget.loose hf.text
  · exact callProperty hself henv hrecv h (hkeys rfl) ellipsis
  · refine (passedArgs hself henv h 0 ellipsis).bind fun s' rest hgrows hrest => .pure (.atom ?_)
    exact emits_joined [.put (hobject' hgrows), .text "(", .put hrest, .text ")"] rfl rfl
  · refine (passedArgs hself henv h 0 ellipsis).bind fun s' rest hgrows hrest => .pure (.atom ?_)
    -- A constructor without arguments has no comma behind the host class.
    have htext := (hrecv.mono hgrows).text
    unfold Lower.separator
    split
    · next hempty =>
      obtain rfl := String.isEmpty_iff.mp hempty
      exact emits_joined [.text Support.newHostObject, .text "(", .put htext, .text "", .text "",
        .text ")"] rfl rfl
    · exact emits_joined [.text Support.newHostObject, .text "(", .put htext, .text ", ", .put hrest,
        .text ")"] rfl rfl
  · exact .pure hrecv
  · split
    · exact configured (hrecv.internalized _ _)
    · exact unsupported

/-! ### Predeclared functions -/

/-- The length of an array is a number written behind the operand, which is evaluated first. -/
theorem fixedLength {operand : Expr} (h : operand.Settles V env s) (len : Nat) :
    Delivers V env s (Lower.fixedLength self operand len) (IsSound V) :=
  renderAround hself henv "(select(2, %e, " [.value] (.cons (.expr h) .nil)
    (emits_nat len) (inert_nat len) rfl

omit hself in
/-- A fresh value is a pointer to a zero value, or the zero value itself of an aggregate. -/
theorem newValue : Delivers V env s (Lower.newValue call) (IsSound V) := by
  refine typeOf henv fun type _ => ?_
  split
  · exact unsupported
  · refine zeroFor fun zero _ hzero => .pure (.atom ?_)
    split
    · exact hzero
    · refine emits_supportCall rfl ?_
      simp only [List.forall_mem_cons]
      exact ⟨hzero, emits_quote _, by simp⟩

/-- A slice is made from the zero value of its elements. -/
theorem makeSlice (h : ∀ a ∈ args, a.Settles V env s) {elem : GoType} (helem : elem.Spelled V) :
    Delivers V env s (Lower.makeSlice self call args elem) (IsSound V) := by
  refine zeroFor fun zero hzero htext => builtinArg h fun len hlen => ?_
  have hname : IsText V true s (quote elem.text) := emits_quote _
  have hrender {operands : List Operand} (shapes : List OperandShape)
      (hoperands : List.Forall₂ (Operand.IsShaped V env s) operands shapes) {back : String}
      (hflat : (patternFlat shapes [.text Support.makeSlice, .text "(", .insert true false,
        .text ", ", .insert true false, .text ", ", .text back]).any (false || ·)) :
      Delivers V env s (render self (Support.makeSlice ++ "(" ++ quote elem.text ++ ", " ++ zero ++
        ", " ++ back) operands) (IsSound V) := by
    refine renderAs hself henv hoperands [.text Support.makeSlice, .text "(", .put hname, .text ", ",
      .put htext, .text ", ", .text back] ?_ hflat rfl
    simp only [List.forall_mem_cons]
    exact ⟨trivial, trivial, inert_quote helem.inert, trivial, helem.inert_zero hzero, trivial,
      trivial, by simp⟩
  cases hcap : args[2]? with
  | some cap =>
    exact hrender [.value, .value]
      (.cons (.expr hlen) (.cons (.expr (h cap (List.mem_of_getElem? hcap))) .nil)) (by decide +kernel)
  | none => exact hrender [.value] (.cons (.expr hlen) .nil) (by decide +kernel)

/-- A map is made empty, behind a check of its size unless that is known. -/
theorem makeMap (h : ∀ a ∈ args, a.Settles V env s) {key elem : GoType} (hkey : key.Spelled V)
    (helem : elem.Spelled V) : Delivers V env s (Lower.makeMap self args key elem) (IsSound V) := by
  have hempty : IsText V true s (mapText [] key elem) :=
    emits_mapText (fun _ h => absurd h List.not_mem_nil) key elem
  unfold Lower.makeMap
  dsimp only
  split
  · exact .pure (.atom hempty)
  · next size hsize =>
    refine look rfl fun _ => ite (fun _ => .pure (.atom hempty)) fun _ => ?_
    have hflat : (patternFlat [.value] [.text "(%1f < 0 or %1f > 2147483647) and ",
        .text Support.runtimeError, .text "(\"makemap: size out of range\") or ",
        .insert true false]).any (true || ·) := by decide +kernel
    refine renderAs hself henv (.cons (.expr (h size (List.mem_of_getElem? hsize))) .nil)
      [.text "(%1f < 0 or %1f > 2147483647) and ", .text Support.runtimeError,
        .text "(\"makemap: size out of range\") or ", .put hempty] ?_ hflat rfl
    simp only [List.forall_mem_cons]
    exact ⟨trivial, trivial, trivial,
      inert_mapText (fun _ h => absurd h List.not_mem_nil) hkey.inert helem.inert, by simp⟩

/-- A channel is made with the name of its element type and its capacity. -/
theorem makeChan (h : ∀ a ∈ args, a.Settles V env s) {elem : GoType} (helem : elem.Spelled V) :
    Delivers V env s (Lower.makeChan self args elem) (IsSound V) := by
  unfold Lower.makeChan
  split
  · next size hsize =>
    exact renderAround hself henv _ [.value]
      (.cons (.expr (h size (List.mem_of_getElem? hsize))) .nil) (emits_quote _)
      (inert_quote helem.inert) rfl
  · refine .pure (.atom (emits_supportCall rfl ?_))
    simp only [List.forall_mem_cons]
    exact ⟨emits_quote _, emits_text rfl, by simp⟩

/-- What is made depends on the type that is asked for. -/
theorem make (h : ∀ a ∈ args, a.Settles V env s) :
    Delivers V env s (Lower.make self call args) (IsSound V) := by
  refine builtinArg h fun first hfirst => typeOf henv fun type htype => ?_
  split
  · next elem hunderlying =>
    exact makeSlice hself henv h (htype.part_of_underlying hunderlying (by simp [GoType.parts]))
  · next key elem hunderlying =>
    exact makeMap hself henv h (htype.part_of_underlying hunderlying (by simp [GoType.parts]))
      (htype.part_of_underlying hunderlying (by simp [GoType.parts]))
  · next elem hunderlying =>
    exact makeChan hself henv h (htype.part_of_underlying hunderlying (by simp [GoType.parts]))
  · exact unsupported

/-- A length is read off a value by its type. -/
theorem len (h : ∀ a ∈ args, a.Settles V env s) :
    Delivers V env s (Lower.len self call args) (IsSound V) := by
  refine builtinArg h fun operand hoperand => typeOf henv fun type _ => ?_
  split
  · exact fixedLength hself henv hoperand _
  split
  · exact ite (fun _ => renderOne hself henv (.expr hoperand) rfl) fun _ => unsupported
  · exact renderOne hself henv (.expr hoperand) rfl
  · exact renderOne hself henv (.expr hoperand) rfl
  · exact renderOne hself henv (.expr hoperand) rfl
  · exact unsupported

/-- So is a capacity. -/
theorem cap (h : ∀ a ∈ args, a.Settles V env s) :
    Delivers V env s (Lower.cap self call args) (IsSound V) := by
  refine builtinArg h fun operand hoperand => typeOf henv fun type _ => ?_
  split
  · exact fixedLength hself henv hoperand _
  split
  · exact renderOne hself henv (.expr hoperand) rfl
  · exact renderOne hself henv (.expr hoperand) rfl
  · exact unsupported

/-- A slice that is spread is appended as a whole. -/
theorem appendAll {slice more : Expr} (hslice : slice.Settles V env s) (hmore : more.Settles V env s) :
    Delivers V env s (Lower.appendAll self slice more) (IsSound V) := by
  refine typeOf henv fun type _ => ?_
  dsimp only
  split
  · exact renderTwo hself henv (.expr hslice) (.expr hmore) (by decide +kernel)
  · exact renderTwo hself henv (.expr hslice) (.expr hmore) (by decide +kernel)

/-- Values are appended one by one, in a pattern with a place for each. -/
theorem append (h : ∀ a ∈ args, a.Settles V env s) (ellipsis : Bool) :
    Delivers V env s (Lower.append self call args ellipsis) (IsSound V) := by
  unfold Lower.append
  split
  · exact unsupported
  · exact hself.sound henv (h _ (by simp)) none
  · next slice more rest =>
    have hslice : slice.Settles V env s := h slice (by simp)
    refine typeOf henv fun type htype => ?_
    split
    · next elem hunderlying =>
      have helem : elem.Spelled V := htype.part_of_underlying hunderlying (by simp [GoType.parts])
      refine ite (fun _ => appendAll hself henv hslice (h more (by simp))) fun _ => ?_
      refine (hself.sound henv hslice none).bind fun s₁ first hgrows₁ hfirst => ?_
      refine Delivers.bind (mapM_all (P := IsSound V) (fun hgrows h => h.mono hgrows)
        fun a ha s' hgrows => ?_) fun s₂ values hgrows₂ hvalues => ?_
      · exact implicitCopy hself henv ((h a (List.mem_cons_of_mem _ ha)).mono (hgrows₁.trans hgrows))
          helem
      have hoperands : ∀ f ∈ first :: values, IsSound V s₂ f :=
        List.forall_mem_cons.mpr ⟨hfirst.mono hgrows₂, hvalues⟩
      refine renderFixed hself henv _ (areShaped_lowered hoperands) ?_
      -- The pattern depends on the number of the values only.
      rw [List.map_const']
      exact patternFlat_append values.length
    · exact unsupported

/-- The key of a deletion is converted to the type of the map's keys. -/
theorem delete (h : ∀ a ∈ args, a.Settles V env s) :
    Delivers V env s (Lower.delete self call args) (IsSound V) := by
  refine builtinArg h fun map hmap => builtinArg h fun key hkey => typeOf henv fun type _ => ?_
  split
  · refine (hself.sound henv hmap none).bind fun s₁ mapText hgrows₁ hmapText => ?_
    refine (mapKey hself henv (hkey.mono hgrows₁) _).bind fun s₂ keyText hgrows₂ hkeyText => ?_
    exact renderTwo hself henv (.lowered (hmapText.mono hgrows₂)) (.lowered hkeyText) rfl
  · exact unsupported

/-- A copy takes a slice, or a string for its bytes. -/
theorem copy (h : ∀ a ∈ args, a.Settles V env s) :
    Delivers V env s (Lower.copy self call args) (IsSound V) := by
  refine builtinArg h fun target htarget => builtinArg h fun source hsource => ?_
  refine typeOf henv fun type _ => ?_
  dsimp only
  split
  · exact renderTwo hself henv (.expr htarget) (.expr hsource) rfl
  · exact renderTwo hself henv (.expr htarget) (.expr hsource) rfl

/-- The helper that prints takes any number of values. -/
theorem print {helper : String} (hhelper : scan {} (helper.toList.map .char) = some true)
    (h : ∀ a ∈ args, a.Settles V env s) :
    Delivers V env s (Lower.print self helper args) (IsSound V) := by
  refine Delivers.bind (mapM_all (P := IsText V false) (fun hgrows h => h.mono hgrows)
    fun a ha s' hgrows => ?_) fun s' texts _ htexts => .pure (.atom ?_)
  · exact (hself.sound henv ((h a ha).mono hgrows) none).map Fragment.text fun _ _ hf => hf.text
  · exact emits_callText (emits_text hhelper) htexts

/-- A complex number has two parts. -/
theorem complexOf (h : ∀ a ∈ args, a.Settles V env s) :
    Delivers V env s (Lower.complexOf self call args) (IsSound V) := by
  refine builtinArg h fun re hre => builtinArg h fun im him => ?_
  refine (implicit hself henv hre _).bind fun s₁ reText hgrows₁ hreText => ?_
  refine (implicit hself henv (him.mono hgrows₁) _).bind fun s₂ imText hgrows₂ himText => ?_
  refine .pure (.atom (emits_callText (emits_text rfl) ?_))
  simp only [List.forall_mem_cons]
  exact ⟨(hreText.mono hgrows₂).text, himText.text, by simp⟩

/-- Every builtin function writes a sound text. -/
theorem builtin (h : ∀ a ∈ args, a.Settles V env s) (name : String) (ellipsis : Bool) :
    Delivers V env s (Lower.builtin self call name args ellipsis) (IsSound V) := by
  -- One case for each function, in the order of the source; the last is a name that is none.
  unfold Lower.builtin
  split
  · exact newValue henv
  · exact make hself henv h
  · exact len hself henv h
  · exact cap hself henv h
  · refine builtinArg h fun value hvalue => ?_
    refine (implicit hself henv hvalue _).bind fun s' text _ htext => .pure (.atom ?_)
    refine emits_callText (emits_text rfl) ?_
    simp only [List.forall_mem_cons]
    exact ⟨htext.text, by simp⟩
  · exact append hself henv h ellipsis
  · exact delete hself henv h
  · exact copy hself henv h
  · exact print hself henv rfl h
  · exact print hself henv rfl h
  · exact complexOf hself henv h
  · exact builtinArg h fun operand hoperand => renderOne hself henv (.expr hoperand) rfl
  · exact builtinArg h fun operand hoperand => renderOne hself henv (.expr hoperand) rfl
  · exact .pure (.atom (emits_text rfl))
  · exact builtinArg h fun operand hoperand => renderOne hself henv (.expr hoperand) rfl
  · exact fail rfl

end

end Delivers

end

end GoLua
