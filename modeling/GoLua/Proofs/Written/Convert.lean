import GoLua.Lower.Index
import GoLua.Proofs.Written.Template

/-!
# Conversions and elements keep to the vocabulary

The rules for identifiers, conversions, type assertions, indices and slices. Most patterns are fixed,
or name a type between fixed texts; that they render to text of the grammar is told by evaluating their
shapes.
-/

namespace GoLua

open Lua Template

section

variable {V : Vocabulary} {env : Env} {s : FunctionState} {self : Lowering} {e : Expr}

/-- A raw value of the host is converted by the library, or by operators. -/
theorem IsSound.internalized {raw : Fragment} (h : IsSound V s raw) (config : Config)
    (type : GoType) : IsSound V s (Lower.internalized config raw type) := by
  -- Most arms call one helper, either on the value alone or with the name of the type behind it.
  have hcall {callee : String} (hcallee : scan {} (callee.toList.map .char) = some true) :
      IsText V true s (callText callee [raw.text]) :=
    emits_callText (emits_text hcallee) fun arg harg => by
      cases List.mem_singleton.mp harg
      exact h.text
  have hlibrary : IsSound V s (.atom (callText Support.internalize [raw.text, quote type.text])) := by
    refine .atom (emits_callText (emits_text rfl) ?_)
    simp only [List.forall_mem_cons]
    exact ⟨h.text, (emits_quote _).loose, by simp⟩
  unfold Lower.internalized
  dsimp only
  split
  · exact h
  split
  · exact hlibrary
  split
  · exact .operation (emits_joined [.text "not not ", .put h.operand] rfl rfl)
  split
  · exact Fragment.Sound.cutToWidth (.atom (hcall rfl)) _
  split
  · exact .atom (hcall rfl)
  · exact hlibrary

namespace Delivers

/-! ### Identifiers -/

/-- What the bridge calls its entities is one of three words. -/
theorem mem_of_hostEntity? {config : Config} {obj : Object} {text : String}
    (h : Lower.hostEntity? config obj = some text) : text ∈ [Support.global, Support.module, "nil"] := by
  unfold Lower.hostEntity? at h
  split at h
  · split at h <;> cases h <;> simp
  · cases h

/-- A name is written as the object it stands for, or as a word of the runtime. -/
theorem identifier (henv : env.Plain V) (h : Settled V s e.id) (name : String) :
    Delivers V env s (Lower.identifier e name) (IsSound V) := by
  have hnil : Delivers V env s (Pure.pure (.atom "nil")) (IsSound V) :=
    .pure (.atom (emits_text rfl))
  refine ite (fun _ => unsupported) fun _ => objectOf henv h fun obj hobj _ => config ?_
  -- The words of the host come first; behind them, the kind of the object decides.
  split
  · next text htext =>
    have hword := mem_of_hostEntity? htext
    refine .pure (.atom ?_)
    simp only [List.mem_cons, List.not_mem_nil, or_false] at hword
    rcases hword with rfl | rfl | rfl <;> exact emits_text rfl
  split
  · exact config (.pure (.atom (hobj.objectName env.config)))
  · exact config (.pure (.atom (hobj.objectName env.config)))
  · exact config (.pure (.atom (hobj.objectName env.config)))
  · refine typeOf henv fun type _ => config (ite (fun _ => hnil) fun _ => ?_)
    have hzero : Delivers V env s (return .atom (← Lower.zeroFor e type)) (IsSound V) :=
      zeroFor fun zero _ htext => .pure (.atom htext)
    split
    · exact .pure (.atom (emits_text rfl))
    · exact hnil
    all_goals first | exact unsupported | exact hzero
  all_goals exact unsupported

/-- The name of a value has no quotes. -/
theorem quietIdentifier (henv : env.Plain V) (h : Settled V s e.id) (hstrict : V.strict)
    (hvalue : ∀ obj, (env.facts.bindingOf e.id).object? = some obj → obj.kind ≠ .nil) (name : String) :
    Delivers V env s (Lower.identifier e name) fun _ f => IsQuiet f.text.toList := by
  refine assuming fun hs => ite (fun _ => unsupported) fun _ => ?_
  refine objectOf henv h fun obj hobj hbinding => config ?_
  have hname : Delivers V env s (return Fragment.atom (← Lower.config (objectName · obj)))
      fun _ (f : Fragment) => IsQuiet f.text.toList :=
    config (.pure (hobj.isQuiet_objectName hstrict env.config))
  -- Of a name that is a value, neither the words nor the spellings can open a string; `nil` is no
  -- value.
  split
  · next text htext =>
    have hwords : ∀ text ∈ [Support.global, Support.module, "nil"], IsQuiet text.toList := by
      decide
    exact .pure (hwords text (mem_of_hostEntity? htext))
  split
  · exact hname
  · exact hname
  · exact hname
  · next hkind => exact absurd hkind ((hs.closed hstrict).kind_ne_nil hvalue hbinding)
  all_goals exact unsupported

section

variable (hself : Lowers V self) (henv : env.Plain V)
include hself henv

/-! ### Values for the host -/

/-- What goes out to the host is sound. -/
theorem externalized (h : e.Settles V env s) :
    Delivers V env s (Lower.externalized self e) (IsSound V) := by
  refine typeOf henv fun type htype => config (ite (fun _ => hself.sound henv h none) fun _ => ?_)
  exact renderAround hself henv (Support.externalize ++ "(%e, ") [.value] (.cons (.expr h) .nil)
    (emits_quote _) (inert_quote htype.inert) rfl

/-- The arguments that go out are texts with commas in between. -/
theorem externalizedArgs {args : List Expr} (h : ∀ e ∈ args, e.Settles V env s) :
    Delivers V env s (Lower.externalizedArgs self args) (IsText V false) := by
  refine Delivers.bind (mapM_all (P := IsText V false) (fun hgrows h => h.mono hgrows)
    fun e he s' hgrows => ?_) fun s' texts _ htexts => .pure (emits_commaSeparated htexts)
  exact (externalized hself henv ((h e he).mono hgrows)).map Fragment.text fun _ _ hf => hf.text

/-- A host object is wrapped by a helper. -/
theorem wrappedHostObject (h : e.Settles V env s) :
    Delivers V env s (Lower.wrappedHostObject self e) (IsSound V) := by
  unfold Lower.wrappedHostObject
  exact renderOne hself henv (.expr h) rfl

/-! ### Implicit conversions -/

/-- An implicit conversion writes a sound text for every type that is asked for. -/
theorem implicit (h : e.Settles V env s) (desired : GoType) :
    Delivers V env s (Lower.implicit self e desired) (IsSound V) := by
  have hlower (desired : Option GoType) : Delivers V env s (self e desired) (IsSound V) :=
    hself.sound henv h desired
  refine typeOf henv fun type htype => ite (fun _ => hlower none) fun _ => ite (fun _ => ?_) fun _ => ?_
  · exact zeroFor fun zero _ htext => .pure (.atom htext)
  refine ite (fun _ => config (ite (fun _ => wrappedHostObject hself henv h) fun _ => ?_))
    fun _ => hlower (some desired)
  refine config (ite (fun _ => ?_) fun _ => ite (fun _ => ?_) fun _ => hlower (some desired))
  · exact renderAround hself henv _ [.value] (.cons (.expr h) .nil) (emits_quote _)
      (inert_quote htype.inert) rfl
  · exact renderOne hself henv (.expr h) rfl

/-- So does the copy behind it. -/
theorem implicitCopy (h : e.Settles V env s) {desired : GoType} (hdesired : desired.Spelled V) :
    Delivers V env s (Lower.implicitCopy self e desired) (IsSound V) := by
  refine ite (fun _ => ?_) fun _ => implicit hself henv h desired
  exact renderAround hself henv (Support.clone ++ "(%e, ") [.value] (.cons (.expr h) .nil)
    (emits_quote _) (inert_quote hdesired.inert) rfl

/-! ### Explicit conversions -/

omit hself henv in
/-- A refused conversion writes nothing. -/
theorem noConversion {source target : GoType} :
    Delivers V env s (Lower.noConversion e source target) (IsSound V) :=
  fail rfl

/-- To an integer kind, the value is cut, truncated or left as it is. -/
theorem toIntegerKind (h : e.Settles V env s) (source target : GoType) (kind : Kind) :
    Delivers V env s (Lower.toIntegerKind self e source target kind) (IsSound V) := by
  unfold Lower.toIntegerKind
  split
  · exact noConversion
  refine ite (fun _ => ?_) fun _ => ite (fun _ => ?_) fun _ => ite (fun _ => ?_) fun _ => noConversion
  · refine (hself.sound henv h none).bind fun s' value _ hvalue => .pure ?_
    split
    · exact hvalue
    · exact hvalue.cutToWidth kind
  · refine Delivers.bind (Q := IsSound V) (renderOne hself henv (.expr h) rfl) fun s' whole _ hwhole => ?_
    exact .pure (hwhole.cutToWidth kind)
  · exact hself.sound henv h none

/-- To a float, an integer is added to zero. -/
theorem toFloatKind (h : e.Settles V env s) (source target : GoType) :
    Delivers V env s (Lower.toFloatKind self e source target) (IsSound V) := by
  unfold Lower.toFloatKind
  split
  · exact noConversion
  · exact ite (fun _ => renderOne hself henv (.expr h) rfl) fun _ =>
      ite (fun _ => hself.sound henv h none) fun _ => noConversion

/-- To a string, runes and slices go through helpers. -/
theorem toStringKind (h : e.Settles V env s) (source target : GoType) :
    Delivers V env s (Lower.toStringKind self e source target) (IsSound V) := by
  unfold Lower.toStringKind
  split
  · exact ite (fun _ => renderOne hself henv (.expr h) rfl) fun _ =>
      ite (fun _ => hself.sound henv h none) fun _ => noConversion
  · dsimp only
    split <;> exact renderOne hself henv (.expr h) rfl
  · exact noConversion

/-- To any basic kind. -/
theorem toKind (h : e.Settles V env s) (source target : GoType) (kind : Kind) :
    Delivers V env s (Lower.toKind self e source target kind) (IsSound V) := by
  have hlower : Delivers V env s (self e none) (IsSound V) := hself.sound henv h none
  refine ite (fun _ => toIntegerKind hself henv h source target kind) fun _ => ?_
  refine ite (fun _ => toFloatKind hself henv h source target) fun _ => ?_
  refine ite (fun _ => ite (fun _ => hlower) fun _ => noConversion) fun _ => ?_
  refine ite (fun _ => toStringKind hself henv h source target) fun _ => ?_
  exact ite (fun _ => hlower) fun _ => ite (fun _ => hlower) fun _ => noConversion

/-- To a slice, strings go through helpers, and slices are left alone. -/
theorem toSlice (h : e.Settles V env s) (source target : GoType) :
    Delivers V env s (Lower.toSlice self e source target) (IsSound V) := by
  unfold Lower.toSlice
  split
  · dsimp only
    split <;> exact renderOne hself henv (.expr h) rfl
  · split
    · exact hself.sound henv h none
    · exact noConversion

/-- The pointer conversion goes down in both types, so the induction is on their sizes together. -/
theorem convertFrom (h : e.Settles V env s) {source target : GoType} (hsource : source.Spelled V)
    (htarget : target.Spelled V) :
    Delivers V env s (Lower.convertFrom self e source target) (IsSound V) := by
  -- By induction on the size of both types, since only pointers ask for conversions again, of their
  -- elements and in both directions.
  induction hn : sizeOf source + sizeOf target using Nat.strongRecOn
    generalizing e source target s with
  | ind n ih =>
    subst hn
    rw [Lower.convertFrom]
    refine ite (fun _ => hself.sound henv h none) fun _ => ite (fun _ => ?_) fun _ => ?_
    · exact zeroFor fun zero _ htext => .pure (.atom htext)
    split
    · exact toKind hself henv h source target _
    · exact toSlice hself henv h source target
    · next targetElem ht =>
      refine ite (fun _ => hself.sound henv h none) fun _ => ?_
      split
      · exact noConversion
      next sourceElem hs =>
      -- The getter converts what the pointer refers to, the setter what is stored; each is lowered
      -- at a use that is made for it.
      have hsmaller := GoType.sizeOf_lt_of_pointerElem? hs
      have htsmaller : sizeOf targetElem < sizeOf target :=
        GoType.sizeOf_lt_of_pointerElem? (by simp [GoType.pointerElem?, ht])
      have hsourceElem := hsource.pointerElem hs
      have htargetElem : targetElem.Spelled V :=
        htarget.part_of_underlying ht (List.mem_singleton_self _)
      refine (hself.sound henv h none).bind fun s₁ inner _ hinner => ?_
      refine (newLocal (by decide) (by decide)).bind fun s₂ pointer hgrows₂ hpointer => ?_
      refine newParameter.bind fun s₃ parameter hgrows₃ hparameter => ?_
      refine (synthesizeVar (hpointer.mono hgrows₃).toIsReadableName hsource _).bind
        fun s₄ pointerVar hgrows₄ hpointerVar => ?_
      refine (synthesizeNode hsourceElem _).bind fun s₅ node hgrows₅ hnode => ?_
      have hderef : (Expr.star node pointerVar).Settles V env s₅ := by
        refine IsNewNode.settles hnode (fun _ => trivial) fun c hc => ?_
        obtain rfl := List.mem_singleton.mp hc
        exact hpointerVar.mono hgrows₅
      refine (ih _ (by omega) hderef hsourceElem htargetElem rfl).bind
        fun s₆ getter hgrows₆ hgetter => ?_
      have hgrows := (hgrows₄.trans hgrows₅).trans hgrows₆
      refine (synthesizeVar (hparameter.mono hgrows).toIsReadableName htargetElem _).bind
        fun s₇ valueVar hgrows₇ hvalueVar => ?_
      refine (ih _ (by omega) hvalueVar htargetElem hsourceElem rfl).bind
        fun s₈ setter hgrows₈ hsetter => .pure (.atom ?_)
      have hlast := hgrows₇.trans hgrows₈
      have hall := hgrows.trans hlast
      exact emits_retypedAccessor hpointer.generated hparameter.generated
        ((hpointer.mono hgrows₃).mono hall).text
        (((hinner.mono hgrows₂).mono hgrows₃).mono hall).text (hgetter.mono hlast).text
        (hparameter.mono hall).text hsetter.text
    · exact ite (fun _ => hself.sound henv h none) fun _ => implicitCopy hself henv h htarget
    · exact implicitCopy hself henv h htarget

/-- A conversion that is written out is sound. -/
theorem conversion (h : e.Settles V env s) {target : GoType} (htarget : target.Spelled V) :
    Delivers V env s (Lower.conversion self e target) (IsSound V) :=
  typeOf henv fun _ hsource => convertFrom hself henv h hsource htarget

/-! ### Type assertions -/

/-- A type assertion goes through a helper that takes the name of the type. -/
theorem typeAssertion {base : Expr} {asserted : Option Expr} (hbase : base.Settles V env s) :
    Delivers V env s (Lower.typeAssertion self e base asserted) (IsSound V) := by
  cases asserted with
  | none => exact hself.sound henv hbase none
  | some asserted =>
    refine typeOf henv fun target htarget => typeOf henv fun type _ => ?_
    have hfits : List.Forall₂ (Operand.IsShaped V env s) [.expr base] [.value] :=
      .cons (.expr hbase) .nil
    have hname : IsText V true s (quote target.text) := emits_quote _
    dsimp only
    split
    · exact renderAround hself henv _ [.value] hfits hname (inert_quote htarget.inert) rfl
    · exact renderAround hself henv _ [.value] hfits hname (inert_quote htarget.inert) rfl

/-! ### Elements -/

/-- The key of a map is converted, and turned into a string where the keys are of another basic kind. -/
theorem mapKey {key : Expr} (h : key.Settles V env s) (keyType : GoType) :
    Delivers V env s (Lower.mapKey self key keyType) (IsSound V) := by
  have hlast {s' : FunctionState} (hgrows : Grows s s') : Delivers V env s' (do
      let converted ← Lower.implicit self key keyType
      return if keyType.basicKind?.any fun k => !k.isString then
          .atom ("tostring(" ++ converted.text ++ ")")
        else converted) (IsSound V) := by
    refine (implicit hself henv (h.mono hgrows) keyType).bind fun s₁ converted _ hconverted => .pure ?_
    split
    · exact .atom (emits_joined [.text "tostring(", .put hconverted.text, .text ")"] rfl rfl)
    · exact hconverted
  refine typeOf henv fun type _ => config (ite (fun _ => ?_) fun _ => hlast (.refl s))
  exact (reportError _ _).bind fun s' _ hgrows _ => hlast hgrows

/-- An element of a map is read with the zero value it may be missing for. -/
theorem mapElement {base index : Expr} (hbase : base.Settles V env s) (hindex : index.Settles V env s)
    (key elem : GoType) :
    Delivers V env s (Lower.mapElement self e base index key elem) (IsSound V) := by
  refine (mapKey hself henv hindex key).bind fun s' keyText hgrows hkey => ?_
  refine zeroFor fun zero _ hzero => typeOf henv fun type _ => ?_
  have hfits : List.Forall₂ (Operand.IsShaped V env s') [.expr base, .lowered keyText, .text zero]
      [.value, .value, .text true false] :=
    .cons (.expr (hbase.mono hgrows)) (.cons (.lowered hkey) (.cons (.text hzero) .nil))
  dsimp only
  split <;> exact renderFixed hself henv _ hfits rfl

/-- An index reads an array, a slice, a string or a map. -/
theorem index {base place : Expr} (hbase : base.Settles V env s) (hplace : place.Settles V env s) :
    Delivers V env s (Lower.index self e base place) (IsSound V) := by
  refine typeOf henv fun baseType _ => look rfl fun _ => ?_
  dsimp only
  split
  · next len _ =>
    refine ite (fun _ => renderTwo hself henv (.expr hbase) (.expr hplace) rfl) fun _ => ?_
    -- The length stands in the pattern.
    have hflat : (patternFlat [.value, .value] [.text "((%2f < 0 or %2f >= ", .insert true false,
        .text ") and ", .text Support.runtimeError, .text "(\"index out of range\") or ",
        .text Lower.elementAccess, .text ")"]).any (false || ·) := by decide +kernel
    refine renderAs hself henv (.cons (.expr hbase) (.cons (.expr hplace) .nil))
      [.text "((%2f < 0 or %2f >= ", .put (emits_nat len), .text ") and ",
        .text Support.runtimeError, .text "(\"index out of range\") or ",
        .text Lower.elementAccess, .text ")"] ?_ hflat rfl
    simp only [List.forall_mem_cons]
    exact ⟨trivial, inert_nat len, trivial, trivial, trivial, trivial, trivial, by simp⟩
  split
  · exact renderTwo hself henv (.expr hbase) (.expr hplace) (by decide +kernel)
  · exact mapElement hself henv hbase hplace _ _
  · refine ite (fun _ => ?_) fun _ => unsupported
    exact renderTwo hself henv (.expr hbase) (.expr hplace) (by decide +kernel)
  · exact unsupported

omit hself henv in
/-- What slices a value, with or without a lower bound, and with up to two upper bounds. -/
theorem patternFlat_slice :
    ∀ slicer ∈ [Support.substring ++ "(%e", Support.subslice ++ "(%e",
      Support.subslice ++ "(" ++ Support.sliceOfArray ++ "(%e)"],
    ∀ low : Bool, ∀ upper ∈ [0, 1, 2],
      (patternFlat (List.replicate (upper + low.toNat + 1) .value) [.text (slicer ++ String.join
        ((if low then ", %f" else ", 0") :: List.replicate upper ", %f") ++ ")")]).any
          (false || ·) := by
  decide +kernel

/-- A slice expression takes one place for each bound it has. -/
theorem slice {base : Expr} {low high max : Option Expr} (hbase : base.Settles V env s)
    (hbounds : ∀ e ∈ low.toList ++ high.toList ++ max.toList, e.Settles V env s) :
    Delivers V env s (Lower.slice self e base low high max) (IsSound V) := by
  refine typeOf henv fun baseType _ => ?_
  split
  · exact unsupported
  -- Only three patterns start a slice, and up to three bounds follow: the patterns are all checked
  -- ahead.
  next slicer hslicer =>
  have hslicer : slicer ∈ [Support.substring ++ "(%e", Support.subslice ++ "(%e",
      Support.subslice ++ "(" ++ Support.sliceOfArray ++ "(%e)"] := by
    unfold Lower.slicer? at hslicer
    split at hslicer
    · split at hslicer <;> cases hslicer
      simp
    · cases hslicer
      simp
    · cases hslicer
      simp
    · split at hslicer <;> cases hslicer
      simp
    · cases hslicer
  have hoperands : ∀ c ∈ base :: low.toList ++ (high.toList ++ max.toList), c.Settles V env s := by
    intro c hc
    rcases List.mem_cons.mp hc with rfl | hc
    · exact hbase
    · exact hbounds c (by simpa [or_assoc] using hc)
  refine renderFixed hself henv _ (areShaped_expr hoperands) ?_
  have hupper : (high.toList ++ max.toList).length ∈ [0, 1, 2] := by
    cases high <;> cases max <;> simp
  have hcount : (base :: low.toList ++ (high.toList ++ max.toList)).length =
      (high.toList ++ max.toList).length + low.isSome.toNat + 1 := by
    cases low <;> simp
  rw [hcount, List.map_const']
  exact patternFlat_slice slicer hslicer low.isSome _ hupper

end

end Delivers

end

end GoLua
