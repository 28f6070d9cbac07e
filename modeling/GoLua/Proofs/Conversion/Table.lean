import GoLua.Proofs.Conversion.Refusal
import GoLua.Proofs.Verbatim

/-!
# The table of conversions

From which types to which an expression can be converted is a relation between types,
`GoType.Convertible`. A row of it is found by what lies below the names of the target, and asks something
of the source. Only the row for two pointers goes down in both types, because a pointer to a value that is
no aggregate is converted by converting what is read through it and, the other way, what is written.

Lowering follows the table (`Lower.decides_convertFrom`). It refuses what has no row, and where there is a
row it may fail for other reasons only. For that the operand has to be accepted from the state in which the
conversion starts, as a rule lowers it without looking at it.

The table is wider than Go's (`Lower.Lax`). Its rows for strings and slices tell slices of runes from all
others, so that a slice of any other type counts as bytes; that for slices compares no elements; and a
pointer to an aggregate, being the aggregate itself, is passed on from whatever there is.
-/

namespace GoLua

open Lua Template

/-! ### The table -/

namespace GoType

/-- The type of a slice's elements. -/
def sliceElem? (t : GoType) : Option GoType :=
  match t.underlying with
  | .slice elem => some elem
  | _ => none

theorem underlying_of_sliceElem? {t elem : GoType} (h : t.sliceElem? = some elem) :
    t.underlying = .slice elem := by
  unfold sliceElem? at h
  split at h
  · next e he => rw [he, Option.some.inj h]
  · cases h

/-- The rows of the table for targets that have a kind. -/
def convertsToKind (source : GoType) : Kind → Bool
  | .bool | .untypedBool => source.basicKind?.any Kind.isTruth
  | .int | .int8 | .int16 | .int32 | .int64 | .uint | .uint8 | .uint16 | .uint32 | .uint64 | .uintptr
  | .untypedInt | .untypedRune =>
    source.basicKind?.any fun k => k.isInteger || k.isFloat || k = .unsafePointer
  | .float32 | .float64 | .untypedFloat => source.basicKind?.any fun k => k.isInteger || k.isFloat
  | .complex64 | .complex128 | .untypedComplex => source.basicKind?.any Kind.isComplex
  | .string | .untypedString =>
    source.basicKind?.any (fun k => k.isInteger || k.isString) || source.sliceElem?.isSome
  | .unsafePointer => source.isPointer || source.basicKind? == some .uintptr
  | .untypedNil => false

/-- **The table.** From which types to which there is a conversion. Targets that have no kind and are
neither slices nor pointers are converted to as in an assignment, which refuses nothing. -/
inductive Convertible : GoType → GoType → Prop where
  | identical {source target : GoType} (h : source.identical target = true) : Convertible source target
  | nil {source target : GoType} (h : source.isUntypedNil = true) : Convertible source target
  | kind {source target : GoType} {kind : Kind} (htarget : target.basicKind? = some kind)
      (h : source.convertsToKind kind = true) : Convertible source target
  | slice {source target elem : GoType} (htarget : target.sliceElem? = some elem)
      (h : source.isString = true ∨ source.sliceElem?.isSome = true) : Convertible source target
  | aggregate {source target elem : GoType} (htarget : target.pointerElem? = some elem)
      (h : elem.isAggregate = true) : Convertible source target
  | unsafePointer {source target elem : GoType} (htarget : target.pointerElem? = some elem)
      (h : source.basicKind? = some .unsafePointer) : Convertible source target
  | accessor {source target sourceElem targetElem : GoType}
      (hsource : source.pointerElem? = some sourceElem)
      (htarget : target.pointerElem? = some targetElem)
      (getter : Convertible sourceElem targetElem) (setter : Convertible targetElem sourceElem) :
      Convertible source target
  | other {source target : GoType} (hkind : target.basicKind? = none)
      (hslice : target.sliceElem? = none) (hpointer : target.pointerElem? = none) :
      Convertible source target

section

variable {source target elem : GoType} {kind : Kind}

/-- The row of the table for integer targets. -/
theorem convertsToKind_integer (h : kind.isInteger = true) :
    source.convertsToKind kind =
      source.basicKind?.any fun k => k.isInteger || k.isFloat || k = .unsafePointer := by
  cases kind with
  | int | int8 | int16 | int32 | int64 | uint | uint8 | uint16 | uint32 | uint64 | uintptr
  | untypedInt | untypedRune => rfl
  | _ => cases h

/-- The row for floats. -/
theorem convertsToKind_float (h : kind.isFloat = true) :
    source.convertsToKind kind = source.basicKind?.any fun k => k.isInteger || k.isFloat := by
  cases kind with
  | float32 | float64 | untypedFloat => rfl
  | _ => cases h

/-- The row for complex numbers, which convert among themselves only. -/
theorem convertsToKind_complex (h : kind.isComplex = true) :
    source.convertsToKind kind = source.basicKind?.any Kind.isComplex := by
  cases kind with
  | complex64 | complex128 | untypedComplex => rfl
  | _ => cases h

/-- The row for strings, the only one that asks for slices too. -/
theorem convertsToKind_string (h : kind.isString = true) :
    source.convertsToKind kind =
      (source.basicKind?.any (fun k => k.isInteger || k.isString) || source.sliceElem?.isSome) := by
  cases kind with
  | string | untypedString => rfl
  | _ => cases h

/-- The row for truth values. -/
theorem convertsToKind_truth (h : kind.isTruth = true) :
    source.convertsToKind kind = source.basicKind?.any Kind.isTruth := by
  cases kind with
  | bool | untypedBool => rfl
  | _ => cases h

/-- The kinds of the rows with one kind each. -/
theorem convertsToKind_others (hinteger : ¬ kind.isInteger = true) (hfloat : ¬ kind.isFloat = true)
    (hcomplex : ¬ kind.isComplex = true) (hstring : ¬ kind.isString = true)
    (htruth : ¬ kind.isTruth = true) :
    source.convertsToKind kind =
      (decide (kind = .unsafePointer) &&
        (source.isPointer || source.basicKind? == some .uintptr)) := by
  cases kind with
  | unsafePointer | untypedNil => rfl
  | _ => contradiction

/-! ### One row for each target

Where types differ, what lies below the names of the target leaves one row, or two for pointers. -/

/-- The row for all other targets. -/
theorem convertible_other (hkind : ∀ kind, target.underlying ≠ .basic kind)
    (hslice : ∀ elem, target.underlying ≠ .slice elem)
    (hpointer : ∀ elem, target.underlying ≠ .pointer elem) : Convertible source target := by
  refine .other ?_ ?_ ?_
  -- None of the three views of the type shows a row of the table: each looks at one constructor,
  -- and the hypotheses exclude all of them.
  · unfold basicKind?
    split
    · next kind h => exact absurd h (hkind kind)
    · rfl
  · unfold sliceElem?
    split
    · next elem h => exact absurd h (hslice elem)
    · rfl
  · unfold pointerElem?
    split
    · next elem h => exact absurd h (hpointer elem)
    · rfl

section

variable (hdistinct : source.identical target = false) (hvalue : source.isUntypedNil = false)

include hdistinct hvalue

/-- To a basic kind, the table is the row of that kind. -/
theorem convertible_kind_iff (htarget : target.underlying = .basic kind) :
    Convertible source target ↔ source.convertsToKind kind = true := by
  refine ⟨fun h => ?_, .kind (by rw [basicKind?, htarget])⟩
  -- All rows but one ask for another target, for identical types or for `nil`.
  cases h <;> simp_all [basicKind?, sliceElem?, pointerElem?]

/-- To a slice, it is the strings and the slices. -/
theorem convertible_slice_iff (htarget : target.underlying = .slice elem) :
    Convertible source target ↔ source.isString = true ∨ source.sliceElem?.isSome = true := by
  refine ⟨fun h => ?_, .slice (by rw [sliceElem?, htarget])⟩
  cases h <;> simp_all [basicKind?, sliceElem?, pointerElem?]

/-- A pointer to a value that is no aggregate. -/
theorem convertible_pointer_iff (htarget : target.underlying = .pointer elem)
    (hplain : elem.isAggregate = false) (hsafe : source.basicKind? ≠ some .unsafePointer) :
    Convertible source target ↔
      ∃ a, source.pointerElem? = some a ∧ Convertible a elem ∧ Convertible elem a := by
  have hpointer : target.pointerElem? = some elem := by rw [pointerElem?, htarget]
  constructor
  · intro h
    cases h <;> simp_all [basicKind?, sliceElem?, pointerElem?]
  · rintro ⟨a, hsource, getter, setter⟩
    exact .accessor hsource hpointer getter setter

end

end

end GoType

/-! ### Rules that follow the table -/

namespace Lower

/-- A rule that does without a refusal if the table has a row for the two types, and fails if it has none.
Only for two pointers the failure may be that of the types they point to. -/
structure Decides (env : Env) (s : FunctionState) (e : Expr) (source target : GoType) (row : Prop)
    (m : LowerM Fragment) : Prop where
  accepts : row → Accepts m env s
  fails : ¬ row → ∀ f t, m.runIn env s ≠ (.ok f, t)
  refuses : ¬ row → source.pointerElem? = none ∨ target.pointerElem? = none →
    m = noConversion e source target

section

variable {env : Env} {s : FunctionState} {e : Expr} {source target : GoType} {kind : Kind} {n : Nat}
  {row : Prop} {m : LowerM Fragment}

/-- Where the row holds, it is enough to accept. -/
theorem Decides.of_row (hrow : row) (h : Accepts m env s) : Decides env s e source target row m :=
  ⟨fun _ => h, fun hno => absurd hrow hno, fun hno => absurd hrow hno⟩

/-- Where it does not, the conversion has to be refused outright. -/
theorem Decides.of_no_row (hrow : ¬ row) :
    Decides env s e source target row (noConversion e source target) :=
  ⟨fun h => absurd h hrow, fun _ _ _ => nofun, fun _ _ => rfl⟩

theorem Decides.congr {row' : Prop} (hiff : row ↔ row') (h : Decides env s e source target row' m) :
    Decides env s e source target row m := by
  rwa [propext hiff]

/-! ### Targets with a kind -/

/-- Integers, floats and raw pointers become integers, and nothing else does. -/
theorem decides_toIntegerKind (h : Accepts (within n e none) env s) (kind : Kind) :
    Decides env s e source target
      (source.basicKind?.any fun k => k.isInteger || k.isFloat || k = .unsafePointer)
      (toIntegerKind (within n) e source target kind) := by
  -- One case for each arm of the function; what an arm asks of the source is its part of the row.
  unfold toIntegerKind
  cases source.basicKind? with
  | none => exact .of_no_row (by simp)
  | some inner =>
    dsimp only
    split
    · next hinteger => exact .of_row (by simp [hinteger]) (h.bind fun _ _ _ => .pure _)
    split
    · next hfloat =>
      exact .of_row (by simp [hfloat])
        ((accepts_renderAs_within h true _).bind fun _ _ _ => .pure _)
    split
    · next hraw => exact .of_row (by simp [hraw]) h
    · next hinteger hfloat hraw => exact .of_no_row (by simp [hinteger, hfloat, hraw])

/-- Integers and floats become floats. -/
theorem decides_toFloatKind (h : Accepts (within n e none) env s) :
    Decides env s e source target (source.basicKind?.any fun k => k.isInteger || k.isFloat)
      (toFloatKind (within n) e source target) := by
  unfold toFloatKind
  cases source.basicKind? with
  | none => exact .of_no_row (by simp)
  | some inner =>
    dsimp only
    split
    · next hinteger => exact .of_row (by simp [hinteger]) (accepts_renderAs_within h true _)
    split
    · next hfloat => exact .of_row (by simp [hfloat]) h
    · next hinteger hfloat => exact .of_no_row (by simp [hinteger, hfloat])

/-- Integers, strings and slices become strings. Of which elements the slice is, is not asked. -/
theorem decides_toStringKind (h : Accepts (within n e none) env s) :
    Decides env s e source target
      (source.basicKind?.any (fun k => k.isInteger || k.isString) || source.sliceElem?.isSome)
      (toStringKind (within n) e source target) := by
  unfold toStringKind GoType.basicKind? GoType.sliceElem?
  cases source.underlying with
  | basic inner =>
    dsimp only
    split
    · next hinteger => exact .of_row (by simp [hinteger]) (accepts_renderAs_within h false _)
    split
    · next hstring => exact .of_row (by simp [hstring]) h
    · next hinteger hstring => exact .of_no_row (by simp [hinteger, hstring])
  | slice elem => exact .of_row rfl (accepts_renderAs_within h false _)
  | _ => exact .of_no_row (by simp)

/-- The conversion to a basic kind decides its row, kind by kind. -/
theorem decides_toKind (h : Accepts (within n e none) env s) (kind : Kind) :
    Decides env s e source target (source.convertsToKind kind)
      (toKind (within n) e source target kind) := by
  unfold toKind
  -- In the order of the function: integers, floats, complex numbers and strings come first, each by
  -- its own lemma.
  split
  · next hinteger =>
    rw [GoType.convertsToKind_integer hinteger]
    exact decides_toIntegerKind h kind
  split
  · next hfloat =>
    rw [GoType.convertsToKind_float hfloat]
    exact decides_toFloatKind h
  split
  · next hcomplex =>
    rw [GoType.convertsToKind_complex hcomplex]
    split
    · next hrow => exact .of_row hrow h
    · next hrow => exact .of_no_row hrow
  split
  · next hstring =>
    rw [GoType.convertsToKind_string hstring]
    exact decides_toStringKind h
  next hinteger hfloat hcomplex hstring =>
  by_cases htruth : kind.isTruth = true
  · -- The row for raw pointers is asked for first, but a truth value is none.
    have hsafe : kind ≠ .unsafePointer := by
      rintro rfl
      cases htruth
    rw [GoType.convertsToKind_truth htruth, if_neg (by simp [hsafe]), htruth, Bool.true_and]
    split
    · next hrow => exact .of_row hrow h
    · next hrow => exact .of_no_row hrow
  · rw [GoType.convertsToKind_others hinteger hfloat hcomplex hstring htruth]
    split
    · next hrow => exact .of_row hrow h
    · next hrow =>
      rw [if_neg (by simp [htruth])]
      exact .of_no_row hrow

/-! ### Other targets -/

/-- Strings and slices become slices. -/
theorem decides_toSlice (h : Accepts (within n e none) env s) :
    Decides env s e source target (source.isString ∨ source.sliceElem?.isSome)
      (toSlice (within n) e source target) := by
  unfold toSlice
  split
  · next hstring => exact .of_row (.inl hstring) (accepts_renderAs_within h false _)
  next hstring =>
  unfold GoType.sliceElem?
  cases source.underlying with
  | slice elem => exact .of_row (.inr rfl) h
  | _ => exact .of_no_row (by simp [hstring])

/-- An implicit conversion refuses nothing of its own: it accepts whenever the operand does. -/
theorem accepts_implicit (h : Accepts (within n e none) env s) (desired : GoType) :
    Accepts (implicit (within n) e desired) env s := by
  -- Each arm lowers the operand, once or in a template, or spells a zero value.
  refine (accepts_typeOf e).bind_still (still_typeOf e) fun type => ?_
  split
  · exact h
  split
  · exact (accepts_zeroFor e desired).bind fun _ _ _ => .pure _
  split
  · refine .bind_ok (runIn_config ..) ?_
    split
    · exact accepts_wrappedHostObject h
    refine .bind_ok (runIn_config ..) ?_
    split
    · exact accepts_renderAs_within h false _
    split
    · exact accepts_renderAs_within h false _
    · exact accepts_within_desired h _
  · exact accepts_within_desired h _

/-- Nor does the copy that goes with it. -/
theorem accepts_implicitCopy (h : Accepts (within n e none) env s) (desired : GoType) :
    Accepts (implicitCopy (within n) e desired) env s := by
  unfold implicitCopy
  split
  · exact accepts_renderAs_within h false _
  · exact accepts_implicit h desired

/-- A new use of a variable is its name. -/
theorem exists_ident_of_synthesizeVar {name : String} {type : GoType} {span : Span} {v : Expr}
    {t : FunctionState} (h : (synthesizeVar name type span).runIn env s = (.ok v, t)) :
    ∃ node, v = .ident node name := by
  cases h
  exact ⟨_, rfl⟩

theorem accepts_synthesizeVar (name : String) (type : GoType) (span : Span) :
    Accepts (synthesizeVar name type span) env s := by
  intro err t h
  cases h

/-! ### Two pointers -/

/-- An accessor around the one that an expression is lowered to, given how what is read and what is
written are converted. -/
def retyped (self : Lowering) (e : Expr) (source sourceElem targetElem : GoType)
    (get set : Expr → LowerM Fragment) : LowerM Fragment := do
  let inner ← self e none
  let pointer ← newLocal "_ptr"
  let parameter ← newLocal "_v"
  let pointerVar ← synthesizeVar pointer source e.span
  let deref := Expr.star (← synthesizeNode sourceElem e.span) pointerVar
  let getter ← get deref
  let valueVar ← synthesizeVar parameter targetElem e.span
  let setter ← set valueVar
  return .atom (retypedAccessor pointer inner.text getter.text parameter setter.text)

section

variable {self : Lowering} {sourceElem targetElem : GoType} {get set : Expr → LowerM Fragment}
  {f : Fragment} {t : FunctionState}

/-- A retyped pointer accepts when both of its accessors do, the getter of a dereferenced name and
the setter of a name. -/
theorem accepts_retyped (h : Accepts (self e none) env s)
    (hget : ∀ node inner name t, Accepts (get (.star node (.ident inner name))) env t)
    (hset : ∀ node name t, Accepts (set (.ident node name)) env t) :
    Accepts (retyped self e source sourceElem targetElem get set) env s := by
  refine h.bind fun inner t _ => .bind_ok (runIn_newLocal ..) (.bind_ok (runIn_newLocal ..) ?_)
  refine (accepts_synthesizeVar _ _ _).bind fun pointerVar t hpointerVar => ?_
  obtain ⟨pointerNode, rfl⟩ := exists_ident_of_synthesizeVar hpointerVar
  refine .bind_ok (runIn_synthesizeNode ..) ((hget _ _ _ _).bind fun getter t _ => ?_)
  refine (accepts_synthesizeVar _ _ _).bind fun valueVar t hvalueVar => ?_
  obtain ⟨valueNode, rfl⟩ := exists_ident_of_synthesizeVar hvalueVar
  exact (hset _ _ _).bind fun setter t _ => .pure _

/-- Where there is such an accessor, both conversions have succeeded. -/
theorem exists_of_runIn_retyped
    (h : (retyped self e source sourceElem targetElem get set).runIn env s = (.ok f, t)) :
    (∃ node inner name g s₁ s₂, (get (.star node (.ident inner name))).runIn env s₁ = (.ok g, s₂)) ∧
      ∃ node name g s₁ s₂, (set (.ident node name)).runIn env s₁ = (.ok g, s₂) := by
  -- The function runs eight steps; what is asked for are the states before the two conversions.
  obtain ⟨inner, s₁, -, h⟩ := LowerM.runIn_bind_eq_ok h
  obtain ⟨pointer, s₂, -, h⟩ := LowerM.runIn_bind_eq_ok h
  obtain ⟨parameter, s₃, -, h⟩ := LowerM.runIn_bind_eq_ok h
  obtain ⟨pointerVar, s₄, hpointerVar, h⟩ := LowerM.runIn_bind_eq_ok h
  obtain ⟨pointerNode, rfl⟩ := exists_ident_of_synthesizeVar hpointerVar
  obtain ⟨node, s₅, -, h⟩ := LowerM.runIn_bind_eq_ok h
  obtain ⟨getter, s₆, hget, h⟩ := LowerM.runIn_bind_eq_ok h
  obtain ⟨valueVar, s₇, hvalueVar, h⟩ := LowerM.runIn_bind_eq_ok h
  obtain ⟨valueNode, rfl⟩ := exists_ident_of_synthesizeVar hvalueVar
  obtain ⟨setter, s₈, hset, -⟩ := LowerM.runIn_bind_eq_ok h
  exact ⟨⟨_, _, _, getter, _, _, hget⟩, _, _, setter, _, _, hset⟩

/-- The accessor follows the table if the two conversions do, whatever the new nodes are and whatever
the state is in which they are made. -/
theorem decides_retyped {n : Nat} (h : Accepts (within n e none) env s)
    (hpointers : source.pointerElem? = some sourceElem ∧ target.pointerElem? = some targetElem)
    (hrow : source.Convertible target ↔
      sourceElem.Convertible targetElem ∧ targetElem.Convertible sourceElem)
    (hget : ∀ e t, Accepts (within n e none) env t →
      Decides env t e sourceElem targetElem (sourceElem.Convertible targetElem) (get e))
    (hset : ∀ e t, Accepts (within n e none) env t →
      Decides env t e targetElem sourceElem (targetElem.Convertible sourceElem) (set e)) :
    Decides env s e source target (source.Convertible target)
      (retyped (within n) e source sourceElem targetElem get set) := by
  refine ⟨fun hconvertible => ?_, fun hno f t hok => hno (hrow.mpr ⟨?_, ?_⟩), fun _ hnone => ?_⟩
  · -- What is read is a dereferenced name, what is written a name: both are accepted in every state.
    obtain ⟨hread, hwritten⟩ := hrow.mp hconvertible
    exact accepts_retyped h
      (fun node inner name t => (hget _ t (accepts_star_ident node inner name none)).accepts hread)
      fun node name t => (hset _ t (accepts_ident node name none)).accepts hwritten
  -- A conversion that succeeded has run both accessors, so a row that fails for either contradicts
  -- it.
  · obtain ⟨⟨node, inner, name, g, s₁, s₂, hok⟩, -⟩ := exists_of_runIn_retyped hok
    by_contra hread
    exact (hget _ s₁ (accepts_star_ident node inner name none)).fails hread g s₂ hok
  · obtain ⟨-, node, name, g, s₁, s₂, hok⟩ := exists_of_runIn_retyped hok
    by_contra hwritten
    exact (hset _ s₁ (accepts_ident node name none)).fails hwritten g s₂ hok
  · simp [hpointers] at hnone

end

/-! ### All targets -/

/-- **Conversions follow the table.** The recursion of pointer conversions goes down in both types, and
what it converts is made of names, which are always accepted. -/
theorem decides_convertFrom (h : Accepts (within n e none) env s) (source target : GoType) :
    Decides env s e source target (source.Convertible target)
      (convertFrom (within n) e source target) := by
  induction hsize : sizeOf source + sizeOf target using Nat.strongRecOn
    generalizing e s source target with
  | ind size ih =>
    subst hsize
    rw [convertFrom]
    -- Identical types and `nil` have rows of their own, whatever the target is.
    split
    · next hsame => exact .of_row (.identical hsame) h
    next hdiffer =>
    replace hdiffer := Bool.not_eq_true _ ▸ hdiffer
    split
    · next hnil => exact .of_row (.nil hnil) ((accepts_zeroFor e target).bind fun _ _ _ => .pure _)
    next hvalue =>
    replace hvalue := Bool.not_eq_true _ ▸ hvalue
    -- From here on the target decides which row there can be.
    split
    · next kind htarget =>
      rw [GoType.convertible_kind_iff hdiffer hvalue htarget]
      exact decides_toKind h kind
    · next elem htarget =>
      rw [GoType.convertible_slice_iff hdiffer hvalue htarget]
      exact decides_toSlice h
    · next targetElem htarget =>
      have hpointer : target.pointerElem? = some targetElem := by rw [GoType.pointerElem?, htarget]
      split
      · next hdirect =>
        refine .of_row ?_ h
        rcases Bool.or_eq_true_iff.mp hdirect with haggregate | hraw
        · exact .aggregate hpointer haggregate
        · exact .unsafePointer hpointer (beq_iff_eq.mp hraw)
      next hplain =>
      obtain ⟨haggregate, hsafe⟩ : targetElem.isAggregate = false ∧
          source.basicKind? ≠ some .unsafePointer := by simpa using hplain
      have hrow := GoType.convertible_pointer_iff hdiffer hvalue htarget haggregate hsafe
      split
      · next hsource => exact .congr (by simp [hrow, hsource]) (.of_no_row id)
      next sourceElem hsource =>
      have hsourceSize := GoType.sizeOf_lt_of_pointerElem? hsource
      have htargetSize := GoType.sizeOf_lt_of_pointerElem? hpointer
      -- The getter and the setter are conversions between the two types that are pointed to, both of
      -- which are smaller, one way and the other.
      change Decides env s e source target _ (retyped (within n) e source sourceElem targetElem
        (convertFrom (within n) · sourceElem targetElem)
        (convertFrom (within n) · targetElem sourceElem))
      exact decides_retyped h ⟨hsource, hpointer⟩ (by simp [hrow, hsource])
        (fun e t he => ih _ (by omega) he sourceElem targetElem rfl)
        fun e t he => ih _ (by omega) he targetElem sourceElem rfl
    · next methods htarget =>
      have hother : source.Convertible target :=
        GoType.convertible_other (by simp [htarget]) (by simp [htarget]) (by simp [htarget])
      split
      · exact .of_row hother h
      · exact .of_row hother (accepts_implicitCopy h target)
    · next hkind hslice hpointer _ =>
      exact .of_row (GoType.convertible_other hkind hslice hpointer) (accepts_implicitCopy h target)

/-! ### Rows that ask too little -/

/-- The pairs of types that have a row although Go has no conversion for them, and what the operand is
lowered to, given its fragment and its text. The rows for strings do not ask what the elements of a slice
are, the one for slices does not compare them, and the one for pointers to aggregates asks nothing. -/
inductive Lax (f : Fragment) (operand : String) : GoType → GoType → Fragment → Prop where
  | encoded {source target elem : GoType} (hsource : source.sliceElem? = some elem)
      (hbyte : elem.basicKind? ≠ some .uint8) (hrune : elem.basicKind? ≠ some .int32)
      (htarget : target.isString = true) :
      Lax f operand source target (.atom (Support.bytesToString ++ "(" ++ operand ++ ")"))
  | decoded {source target elem : GoType} (hsource : source.isString = true)
      (htarget : target.sliceElem? = some elem) (hbyte : elem.basicKind? ≠ some .uint8)
      (hrune : elem.basicKind? ≠ some .int32) :
      Lax f operand source target (.atom (Support.stringToBytes ++ "(" ++ operand ++ ")"))
  | slices {source target a b : GoType} (hsource : source.sliceElem? = some a)
      (htarget : target.sliceElem? = some b)
      (hdiffer : source.underlying.identical target.underlying = false) :
      Lax f operand source target f
  | pointer {source target elem : GoType} (hsource : source.pointerElem? = none)
      (hsafe : source.basicKind? ≠ some .unsafePointer) (htarget : target.pointerElem? = some elem)
      (helem : elem.isAggregate = true) : Lax f operand source target f

variable {self : Lowering} {f g : Fragment} {s' : FunctionState}

/-- A function of the library with one operand. -/
theorem runIn_helper {helper : String} (hhelper : Inert helper)
    (hown : (self e none).runIn env s = (.ok f, s')) :
    (render self (helper ++ "(%e)") [e]).runIn env s =
      (.ok (.atom (helper ++ "(" ++ env.written s e f ++ ")")), s') := by
  have hfront : Inert (helper ++ "(") := inert_append hhelper (by decide)
  have hpattern : helper ++ "(%e)" = helper ++ "(" ++ "%e" ++ ")" := by
    rw [String.append_assoc, String.append_assoc]
    rfl
  rw [hpattern]
  exact runIn_renderAs_around hfront (by decide) hown false

/-- Where Go has no conversion, the operand is wrapped in the function for bytes or passed on. -/
theorem runIn_convertFrom_of_lax (hdiffer : source.identical target = false)
    (hvalue : source.isUntypedNil = false) (hown : (self e none).runIn env s = (.ok f, s'))
    (h : Lax f (env.written s e f) source target g) :
    (convertFrom self e source target).runIn env s = (.ok g, s') := by
  cases h with
  | encoded hsource hbyte hrune htarget =>
    -- The only question about the elements is whether they are runes.
    obtain ⟨kind, hkind, hstring⟩ := (Option.any_eq_true _ _).mp htarget
    have hslice := GoType.underlying_of_sliceElem? hsource
    have hhelper : source.isRuneSlice = false := by simp [GoType.isRuneSlice, hslice, hrune]
    have hto : toKind self e source target kind = toStringKind self e source target := by
      cases kind with
      | string | untypedString => rfl
      | _ => cases hstring
    rw [convertFrom_of_kind hdiffer hvalue (GoType.underlying_of_basicKind? hkind), hto, toStringKind,
      hslice]
    dsimp only
    rw [hhelper]
    exact runIn_helper (by decide) hown
  | decoded hsource htarget hbyte hrune =>
    have hslice := GoType.underlying_of_sliceElem? htarget
    have hhelper : target.isRuneSlice = false := by simp [GoType.isRuneSlice, hslice, hrune]
    rw [convertFrom_of_slice hdiffer hvalue hslice, toSlice, if_pos hsource]
    dsimp only
    rw [hhelper]
    exact runIn_helper (by decide) hown
  | slices hsource htarget _ =>
    -- A slice is no string, so that the second row is reached, which asks for any slice.
    have hslice := GoType.underlying_of_sliceElem? hsource
    have hstring : source.isString = false := by simp [GoType.isString, GoType.basicKind?, hslice]
    rw [convertFrom_of_slice hdiffer hvalue (GoType.underlying_of_sliceElem? htarget), toSlice, hstring,
      hslice]
    exact hown
  | pointer hsource hsafe htarget helem =>
    rw [convertFrom_of_aggregate hdiffer hvalue (GoType.underlying_of_pointerElem? htarget) helem]
    exact hown

/-- The conversion of a whole expression is `convertFrom` at the fuel of the expression. -/
theorem runIn_lowerConversion (htype : env.type? s e.id = some source) (target : GoType) :
    (lowerConversion e target).runIn env s =
      (convertFrom (within (nestingBound e.size)) e source target).runIn env s := by
  rw [lowerConversion, conversion, LowerM.runIn_bind_ok (runIn_typeOf_of_type? htype)]

/-- **Which conversions are refused.** An expression that can be lowered is converted to another type that
is not identical. If the table has a row for the two types, that does not fail for want of a conversion. If
it has none, the conversion fails, and it says so and changes nothing, unless both types are pointers: then
it may have started on what they point to. The rows that ask too little convert what Go does not: a slice
of anything becomes a string as if it were bytes, and back, and slices and pointers to aggregates are
passed on as they are. -/
theorem conversions_refused {env : Env} {s s' : FunctionState} {e : Expr} {f : Fragment}
    {source target : GoType} (htype : env.type? s e.id = some source)
    (hown : (lower e none).runIn env s = (.ok f, s'))
    (hdiffer : source.identical target = false) (hvalue : source.isUntypedNil = false) :
    (source.Convertible target → Accepts (lowerConversion e target) env s) ∧
    (¬ source.Convertible target → ∀ g t, (lowerConversion e target).runIn env s ≠ (.ok g, t)) ∧
    (¬ source.Convertible target → source.pointerElem? = none ∨ target.pointerElem? = none →
      (lowerConversion e target).runIn env s =
        (.error (.gap (.conversion source.text target.text e.location)), s)) ∧
    ∀ g, Lax f (env.written s e f) source target g →
      source.Convertible target ∧ (lowerConversion e target).runIn env s = (.ok g, s') := by
  -- The operand is lowered by the same fuel the conversion gets, so what is known about
  -- `convertFrom` applies to the run as it stands.
  have hrun := runIn_lowerConversion htype target
  have hwithin : (within (nestingBound e.size) e none).runIn env s = (.ok f, s') := hown
  have hdecides := decides_convertFrom (.of_ok hwithin) source target
  refine ⟨fun hrow => .congr hrun.symm (hdecides.accepts hrow), fun hno g t => ?_,
    fun hno hpointers => ?_, fun g hlax => ?_⟩
  · rw [hrun]
    exact hdecides.fails hno g t
  · rw [hrun, hdecides.refuses hno hpointers]
    rfl
  · have hok := runIn_convertFrom_of_lax hdiffer hvalue hwithin hlax
    refine ⟨Classical.not_not.mp fun hno => hdecides.fails hno g s' hok, ?_⟩
    rw [hrun, hok]

end

/-- `xs`, `text` and `n`, for a slice of integers, a string and an integer -/
def laxOperands : Build (Expr × Expr × Expr) := do
  let xs ← Build.var "xs" (.slice (.basic .int))
  let text ← Build.var "text" (.basic .string)
  return (xs, text, ← Build.var "n" (.basic .int))

/-- The facts about `laxOperands`. -/
def laxOperandsEnv : Env :=
  { facts := (laxOperands.run {}).2.facts }

/-- The slice does not become a number, but it does become a string. -/
theorem conversions_refused_ints :
    ∃ xs, (laxOperands.run {}).1.1 = xs ∧
      (lowerConversion xs (.basic .float64)).runIn laxOperandsEnv {} =
        (.error (.gap (.conversion "[]int" "float64" xs.location)), {}) ∧
      (lowerConversion xs (.basic .string)).runIn laxOperandsEnv {} =
        (.ok (.atom "__bytesToString(xs)"), {}) := by
  have htype : laxOperandsEnv.type? {} (laxOperands.run {}).1.1.id = some (.slice (.basic .int)) := rfl
  have hown : (lower (laxOperands.run {}).1.1 none).runIn laxOperandsEnv {} = (.ok (.atom "xs"), {}) := rfl
  refine ⟨_, rfl, ?_, ?_⟩
  · have hdiffer : (GoType.slice (.basic .int)).identical (.basic .float64) = false := by decide
    have hno : ¬ (GoType.slice (.basic .int)).Convertible (.basic .float64) :=
      (GoType.convertible_kind_iff hdiffer rfl rfl).not.mpr (by decide)
    exact (conversions_refused htype hown hdiffer rfl).2.2.1 hno (.inl rfl)
  · have hdiffer : (GoType.slice (.basic .int)).identical (.basic .string) = false := by decide
    exact ((conversions_refused htype hown hdiffer rfl).2.2.2 _
      (.encoded rfl (by decide) (by decide) rfl)).2

/-- A slice of integers becomes a string and a slice of strings, a string a slice of integers, and an
integer a pointer to a struct. -/
theorem conversions_notRefused :
    ∃ xs text n, (laxOperands.run {}).1 = (xs, text, n) ∧
      [xs, text, n].map (fun e => laxOperandsEnv.type? {} e.id) =
        [some (.slice (.basic .int)), some (.basic .string), some (.basic .int)] ∧
      [xs, text, n].map (fun e => (lower e none).runIn laxOperandsEnv {}) =
        [(.ok (.atom "xs"), {}), (.ok (.atom "text"), {}), (.ok (.atom "n"), {})] ∧
      (lowerConversion xs (.basic .string)).runIn laxOperandsEnv {} =
        (.ok (.atom "__bytesToString(xs)"), {}) ∧
      (lowerConversion text (.slice (.basic .int))).runIn laxOperandsEnv {} =
        (.ok (.atom "__stringToBytes(text)"), {}) ∧
      (lowerConversion xs (.slice (.basic .string))).runIn laxOperandsEnv {} = (.ok (.atom "xs"), {}) ∧
      (lowerConversion n (.pointer (.named "main.Point" (.struct [])))).runIn laxOperandsEnv {} =
        (.ok (.atom "n"), {}) := by
  refine ⟨_, _, _, rfl, rfl, rfl, ?_, ?_, ?_, ?_⟩ <;> rw [runIn_lowerConversion rfl]
  · exact runIn_convertFrom_of_lax (by decide) rfl rfl (.encoded rfl (by decide) (by decide) rfl)
  · exact runIn_convertFrom_of_lax (by decide) rfl rfl (.decoded rfl rfl (by decide) (by decide))
  · exact runIn_convertFrom_of_lax (by decide) rfl rfl (.slices rfl rfl (by decide))
  · exact runIn_convertFrom_of_lax (by decide) rfl rfl (.pointer rfl (by decide) rfl rfl)

end Lower

end GoLua
