import GoLua.Proofs.Built
import Mathlib.Data.List.Forall2

/-!
# Looking at facts, and lists of computations

The computations that only look something up: what a rule of lowering asks before it decides. All of
them are free. What is known of an answer is whether an expression counts as constant or repeatable,
which decides whether it may be written twice.

At the end stand the computations that do something for each element of a list: they cost what the
elements cost together. Parts in sequence are such a list, whatever has to be moved in between.
-/

namespace GoLua.Built

variable {S : Setting} {I : NodeId → Prop} {α : Type} {w : Nat} {e : Expr}

/-- What is missing costs nothing, and is no missing type. -/
theorem orFail {a : Option α} {err : LowerError} (h : ∀ id l, err ≠ .missingType id l) :
    Builds S I 0 (Lower.orFail a err) := by
  cases a with
  | none => exact .fail h
  | some a => exact .pure trivial

/-- The same for what a function without a state returns. -/
theorem ofExcept {r : Except LowerError α} (h : ∀ err, r = .error err → ∀ id l, err ≠ .missingType id l) :
    Builds S I 0 (Lower.ofExcept r) := by
  cases r with
  | error err => exact .fail (h err rfl)
  | ok a => exact .pure trivial

theorem intConstantOf (h : I e.id) : Builds S I 0 (Lower.intConstantOf e) :=
  (constantOf h).free fun _ _ => .pure trivial

theorem isConstant (h : I e.id) :
    Built S I 0 (Lower.isConstant e) fun b => b = S.prices.constant e.id :=
  (constantOf h).free fun _ hc => .pure hc

theorem objectOf (h : I e.id) : Builds S I 0 (Lower.objectOf e) :=
  (boundObject? h).free fun _ _ => orFail fun _ _ h => by cases h

theorem isNil (h : I e.unparen.id) : Builds S I 0 (Lower.isNil e) := by
  unfold Lower.isNil
  split
  · exact (boundObject? h).free fun _ _ => .pure trivial
  · exact .pure trivial

/-- What may be written twice is a name or a constant. -/
theorem isRepeatableExpr (h : I e.id) :
    Built S I 0 (Lower.isRepeatableExpr e)
      fun b => b = (e.unparen.isIdent || S.prices.constant e.id) := by
  unfold Lower.isRepeatableExpr
  split
  · next he => exact .pure (by simp [he])
  · next he => exact (isConstant h).weaken (Nat.le_refl 0) fun b hb => by simpa [he] using hb

/-- A known name of a constant is a name of Lua. -/
theorem nameConstant? (h : I e.id) :
    Built S I 0 (Lower.nameConstant? e) fun name => ∀ id, name = some id → Lua.isName id :=
  (constantOf h).free fun _ _ => .pure fun _ hid => (Option.filter_eq_some_iff.mp hid).2

theorem denotesType (h : I e.id) : Builds S I 0 (Lower.denotesType e) :=
  (boundObject? h).free fun _ _ => .pure trivial

/-- Whether a callee is a type is looked up below its brackets. -/
theorem isTypeExpr (h : e.All fun c => I c.id) : Builds S I 0 (Lower.isTypeExpr e) := by
  have hu := h.unparen
  unfold Lower.isTypeExpr
  split
  · exact .pure trivial
  · exact denotesType hu.here
  · next n base sel heq =>
    rw [heq] at hu ⊢
    refine (selectionOf hu.here).free fun selection _ => ?_
    split
    · exact denotesType (hu.part (by simp [Expr.parts])).here
    · exact .pure trivial
  · exact .pure trivial

theorem signatureOf (h : I e.id) : Builds S I 0 (Lower.signatureOf e) := by
  refine (typeOf h).free fun type _ => ?_
  split
  · exact .pure trivial
  · exact .unsupported

/-- The zero value of a type is a text or a gap of its own. -/
theorem zeroFor (type : GoType) : Builds S I 0 (Lower.zeroFor e type) := by
  refine ofExcept fun err herr id l h => ?_
  subst h
  unfold GoType.zeroAt at herr
  cases hz : type.zero <;> simp [hz, Except.mapError] at herr

theorem pathFrom (type : GoType) (index : List Nat) (span : Span) :
    Builds S I 0 (Lower.pathFrom type index span) := by
  refine (config _).free fun path _ => ofExcept fun err herr id l h => ?_
  subst h
  cases path <;> simp [Except.mapError] at herr

/-- A constant of a type is a literal or a gap of its own. -/
theorem constantLower (c : Constant) (type : GoType) (desired : Option GoType)
    (location : Location) : Builds S I 0 (Lower.ofExcept (c.lower type desired location)) := by
  refine ofExcept fun err herr id l h => ?_
  subst h
  unfold Constant.lower at herr
  repeat' split at herr
  all_goals cases herr

/-! ### Lists of computations -/

/-- A computation for each element of a list costs what the computations cost together. -/
theorem mapM_forall₂ {β : Type} {f : α → LowerM β} {cost : α → Nat} {Q : α → β → Prop} {as : List α}
    (h : ∀ a ∈ as, Built S I (cost a) (f a) (Q a)) :
    Built S I (sumOf cost as) (as.mapM f) (List.Forall₂ Q as) := by
  induction as with
  | nil => exact .pure .nil
  | cons a as ih =>
    rw [List.mapM_cons]
    refine (h a (by simp)).seq (Nat.le_add_right _ _) fun b hb => ?_
    rw [sumOf_cons, Nat.add_sub_cancel_left]
    exact (ih fun b hb => h b (by simp [hb])).map _ fun bs hbs => .cons hb hbs

/-- A list of computations costs the sum. -/
theorem mapM {β : Type} {f : α → LowerM β} {cost : α → Nat} {as : List α}
    (h : ∀ a ∈ as, Builds S I (cost a) (f a)) : Builds S I (sumOf cost as) (as.mapM f) :=
  (mapM_forall₂ h).any

/-! ### Sequences -/

/-- Moving texts costs nothing more. -/
theorem moveToTemporaries {hint : String} (hhint : isHint hint) (texts : List String) :
    Builds S I 0 (Lower.moveToTemporaries hint texts) := by
  induction texts with
  | nil => exact .pure trivial
  | cons text texts ih =>
    unfold Lower.moveToTemporaries
    split
    · exact ih.free fun moved _ => .pure trivial
    · exact (keepInTemporary hint text hhint).free fun temporary _ => ih.free fun moved _ => .pure trivial

theorem move {hint : String} (hhint : isHint hint) (parts : Lower.Parts) :
    Builds S I 0 (parts.move hint) :=
  (moveToTemporaries hhint parts.open).free fun _ _ => .pure trivial

/-- A sequence costs the sum of its parts. -/
theorem inSequence {α : Type} {f : α → LowerM String} {cost : α → Nat} {as : List α}
    (h : ∀ a ∈ as, Builds S I (cost a) (f a)) (hint : String) (hhint : isHint hint)
    (parts : Lower.Parts) :
    Builds S I (sumOf cost as) (Lower.inSequence hint parts (as.map f)) := by
  induction as generalizing parts with
  | nil => exact .pure trivial
  | cons a as ih =>
    refine (add hhint parts (h a (by simp))).seq (Nat.le_add_right _ _) fun parts _ => ?_
    rw [sumOf_cons, Nat.add_sub_cancel_left]
    exact ih (fun b hb => h b (by simp [hb])) parts

end GoLua.Built
