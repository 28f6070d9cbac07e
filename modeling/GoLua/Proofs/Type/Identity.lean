import GoLua.Lower.Expr
import GoLua.Proofs.Run
import GoLua.Tree.Builder

/-!
# Identity is an equivalence

Identity compares two types constructor by constructor, and a declared type by its name alone. It is
nevertheless equality of something: of what is left of a type once the parts that identity passes over are
taken out of it, which are the definition behind a declared name, the host tag of a field and the receiver
of a signature. `GoType.canonical` takes them out, `GoType.identical_iff` says that identity compares what
is left, and the laws of an equivalence follow from those of equality.

None of the parts taken out is ever written, so a type and its canonical form have one text, and identical
types have one name in the run-time library. A conversion between identical types emits nothing, and has
nothing to emit.
-/

namespace GoLua

/-! ### The canonical form of a type -/

mutual

/-- A type without the definitions of declared types, host tags and receivers. -/
def GoType.canonical : GoType → GoType
  | .basic k => .basic k
  | .array elem len => .array elem.canonical len
  | .slice elem => .slice elem.canonical
  | .map key elem => .map key.canonical elem.canonical
  | .struct fields => .struct (canonicalFields fields)
  | .pointer elem => .pointer elem.canonical
  | .interface methods => .interface methods
  | .func signature => .func signature.canonical
  | .chan elem => .chan elem.canonical
  | .named name _ => .named name .void
  | .tuple types => .tuple (canonicalTypes types)
termination_by structural t => t

/-- The canonical forms of several types. -/
def canonicalTypes : List GoType → List GoType
  | [] => []
  | t :: ts => t.canonical :: canonicalTypes ts
termination_by structural ts => ts

/-- The canonical forms of several fields. -/
def canonicalFields : List Field → List Field
  | [] => []
  | f :: fs => f.canonical :: canonicalFields fs
termination_by structural fs => fs

/-- A field of canonical type without a host tag. -/
def Field.canonical : Field → Field
  | ⟨name, type, embedded, _⟩ => ⟨name, type.canonical, embedded, none⟩
termination_by structural f => f

/-- A signature between canonical types without a receiver. -/
def Signature.canonical : Signature → Signature
  | ⟨_, params, results, variadic⟩ => ⟨none, canonicalTypes params, canonicalTypes results, variadic⟩
termination_by structural s => s

end

/-! ### Identity compares canonical forms -/

mutual

/-- Two types are identical just if they have the same canonical form. -/
theorem GoType.identical_iff (s t : GoType) : s.identical t = true ↔ s.canonical = t.canonical := by
  cases s with
  | basic => cases t <;> simp [GoType.identical, GoType.canonical]
  | array s => cases t <;> simp [GoType.identical, GoType.canonical, s.identical_iff, and_comm]
  | slice s => cases t <;> simp [GoType.identical, GoType.canonical, s.identical_iff]
  | map k s => cases t <;> simp [GoType.identical, GoType.canonical, k.identical_iff, s.identical_iff]
  | struct fs => cases t <;> simp [GoType.identical, GoType.canonical, identicalFields_iff fs]
  | pointer s => cases t <;> simp [GoType.identical, GoType.canonical, s.identical_iff]
  | interface => cases t <;> simp [GoType.identical, GoType.canonical]
  | func s => cases t <;> simp [GoType.identical, GoType.canonical, s.identical_iff]
  | chan s => cases t <;> simp [GoType.identical, GoType.canonical, s.identical_iff]
  | named => cases t <;> simp [GoType.identical, GoType.canonical]
  | tuple ss => cases t <;> simp [GoType.identical, GoType.canonical, identicalTypes_iff ss]
termination_by structural s

/-- Lists of types are identical, one by one, if their canonical forms are the same list. -/
theorem identicalTypes_iff (ss ts : List GoType) :
    identicalTypes ss ts = true ↔ canonicalTypes ss = canonicalTypes ts := by
  cases ss with
  | nil => cases ts <;> simp [identicalTypes, canonicalTypes]
  | cons s ss =>
    cases ts <;> simp [identicalTypes, canonicalTypes, s.identical_iff, identicalTypes_iff ss]
termination_by structural ss

/-- The same for fields, by name, type and whether they are embedded. -/
theorem identicalFields_iff (fs gs : List Field) :
    identicalFields fs gs = true ↔ canonicalFields fs = canonicalFields gs := by
  cases fs with
  | nil => cases gs <;> simp [identicalFields, canonicalFields]
  | cons f fs =>
    cases gs <;> simp [identicalFields, canonicalFields, f.identical_iff, identicalFields_iff fs]
termination_by structural fs

/-- Tags do not count for identity, and so the canonical form forgets them. -/
theorem Field.identical_iff (f g : Field) : f.identical g = true ↔ f.canonical = g.canonical := by
  cases f with
  | mk _ s =>
    cases g
    simp only [Field.identical, Field.canonical, Bool.and_eq_true, beq_iff_eq, s.identical_iff,
      Field.mk.injEq, and_true]
    exact ⟨fun ⟨⟨hname, hembedded⟩, htype⟩ => ⟨hname, htype, hembedded⟩,
      fun ⟨hname, htype, hembedded⟩ => ⟨⟨hname, hembedded⟩, htype⟩⟩
termination_by structural f

/-- The receiver does not count for identity, and so the canonical form forgets it. -/
theorem Signature.identical_iff (s t : Signature) :
    s.identical t = true ↔ s.canonical = t.canonical := by
  cases s with
  | mk _ ps qs =>
    cases t
    simp only [Signature.identical, Signature.canonical, Bool.and_eq_true, beq_iff_eq,
      identicalTypes_iff ps, identicalTypes_iff qs, Signature.mk.injEq, true_and]
    exact ⟨fun ⟨⟨hvariadic, hparams⟩, hresults⟩ => ⟨hparams, hresults, hvariadic⟩,
      fun ⟨hparams, hresults, hvariadic⟩ => ⟨⟨hvariadic, hparams⟩, hresults⟩⟩
termination_by structural s

end

/-! ### The canonical form has the text of the type -/

mutual

/-- What the canonical form forgets is not written in the text of a type. -/
@[simp] theorem GoType.text_canonical (t : GoType) : t.canonical.text = t.text := by
  cases t with
  | basic => rfl
  | array elem => simp [GoType.canonical, GoType.text, elem.text_canonical]
  | slice elem => simp [GoType.canonical, GoType.text, elem.text_canonical]
  | map key elem => simp [GoType.canonical, GoType.text, key.text_canonical, elem.text_canonical]
  | struct fields => simp [GoType.canonical, GoType.text, fieldTexts_canonicalFields fields]
  | pointer elem => simp [GoType.canonical, GoType.text, elem.text_canonical]
  | interface => rfl
  | func signature => simp [GoType.canonical, GoType.text, signature.text_canonical]
  | chan elem => simp [GoType.canonical, GoType.text, elem.text_canonical]
  | named => rfl
  | tuple types => simp [GoType.canonical, GoType.text, typeTexts_canonicalTypes types]
termination_by structural t

@[simp] theorem typeTexts_canonicalTypes (ts : List GoType) :
    typeTexts (canonicalTypes ts) = typeTexts ts := by
  cases ts with
  | nil => rfl
  | cons t ts => simp [canonicalTypes, typeTexts, t.text_canonical, typeTexts_canonicalTypes ts]
termination_by structural ts

@[simp] theorem fieldTexts_canonicalFields (fs : List Field) :
    fieldTexts (canonicalFields fs) = fieldTexts fs := by
  cases fs with
  | nil => rfl
  | cons f fs => simp [canonicalFields, fieldTexts, f.text_canonical, fieldTexts_canonicalFields fs]
termination_by structural fs

@[simp] theorem Field.text_canonical (f : Field) : f.canonical.text = f.text := by
  cases f with
  | mk _ type => simp [Field.canonical, Field.text, type.text_canonical]
termination_by structural f

@[simp] theorem Signature.text_canonical (s : Signature) : s.canonical.text = s.text := by
  cases s with
  | mk _ params results =>
    simp [Signature.canonical, Signature.text, typeTexts_canonicalTypes params,
      typeTexts_canonicalTypes results]
termination_by structural s

end

/-! ### Conversions between identical types -/

namespace GoType

/-- The relation of identity. -/
theorem identical_equivalence : Equivalence fun s t : GoType => s.identical t = true where
  refl t := (identical_iff t t).mpr rfl
  symm h := (identical_iff ..).mpr ((identical_iff ..).mp h).symm
  trans h h' := (identical_iff ..).mpr (((identical_iff ..).mp h).trans ((identical_iff ..).mp h'))

/-- Identical types have the same name in the run-time library. -/
theorem text_eq_of_identical {s t : GoType} (h : s.identical t) : s.text = t.text := by
  rw [← text_canonical s, (identical_iff s t).mp h, text_canonical]

end GoType

namespace Lower

variable {env : Env} {s : FunctionState} {e : Expr} {source target : GoType}

/-- An explicit conversion between identical types is the lowering of its operand. -/
theorem runIn_conversion_identical (htype : env.type? s e.id = some source)
    (h : source.identical target) (self : Lowering) :
    (conversion self e target).runIn env s = (self e none).runIn env s := by
  rw [conversion, LowerM.runIn_bind_ok (runIn_typeOf_of_type? htype), convertFrom, if_pos h]

/-- So is an implicit one. -/
theorem runIn_implicit_identical (htype : env.type? s e.id = some source)
    (h : source.identical target) (self : Lowering) :
    (implicit self e target).runIn env s = (self e none).runIn env s := by
  rw [implicit, LowerM.runIn_bind_ok (runIn_typeOf_of_type? htype), if_pos h]

end Lower

/-- **Identity is an equivalence that names respect.** It is reflexive, symmetric and transitive, and
identical types have the same text. So where a conversion, explicit or implicit, emits nothing because its
types are identical, the type that it converts from and the one that it converts to have one name. -/
theorem Lower.identity_respectsNames :
    (∀ a : GoType, a.identical a) ∧
    (∀ a b : GoType, a.identical b → b.identical a) ∧
    (∀ a b c : GoType, a.identical b → b.identical c → a.identical c) ∧
    (∀ a b : GoType, a.identical b → a.text = b.text) ∧
    ∀ (env : Env) (s : FunctionState) (e : Expr) (source target : GoType),
      env.type? s e.id = some source → source.identical target →
        (lowerConversion e target).runIn env s = (lower e none).runIn env s ∧
        (lowerImplicit e target).runIn env s = (lower e none).runIn env s ∧
        source.text = target.text := by
  -- Identity is equality of canonical forms, so it is an equivalence; the last part is about both
  -- conversions.
  refine ⟨GoType.identical_equivalence.refl, fun _ _ h => GoType.identical_equivalence.symm h,
    fun _ _ _ h h' => GoType.identical_equivalence.trans h h',
    fun _ _ h => GoType.text_eq_of_identical h, ?_⟩
  intro env s e source target htype h
  exact ⟨runIn_conversion_identical htype h _, runIn_implicit_identical htype h _,
    GoType.text_eq_of_identical h⟩

/-- `p`, a point. -/
def pointVar : Build Expr :=
  Build.var "p" (.named "main.Point" (.struct [⟨"X", .basic .int, false, none⟩]))

/-- The facts about `pointVar`. -/
def pointVarEnv : Env :=
  { facts := (pointVar.run {}).2.facts }

/-- What a declared type is defined as makes no difference: a conversion of a point to a point emits
nothing, and lists of points have one name. -/
theorem Lower.identity_respectsNames_point :
    ∃ p, (pointVar.run {}).1 = p ∧
      (lowerConversion p (.named "main.Point" .void)).runIn pointVarEnv {} = (.ok (.atom "p"), {}) ∧
      (GoType.slice (.named "main.Point" .void)).text =
        (GoType.slice (.named "main.Point" (.struct [⟨"X", .basic .int, false, some "x"⟩]))).text := by
  obtain ⟨-, -, -, hnames, hconversion⟩ := Lower.identity_respectsNames
  refine ⟨_, rfl, ?_, hnames _ _ (by decide)⟩
  rw [(hconversion pointVarEnv {} _ _ (.named "main.Point" .void) rfl (by decide)).1]
  rfl

end GoLua
