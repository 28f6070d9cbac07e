import GoLua.Lower.Identifier
import GoLua.Proofs.Run.Still
import Mathlib.Data.List.Forall2

/-!
# Runs that ask for zero values

What a rule is told when it asks for the zero value of a type, or for those of all fields of a struct.
Asking changes nothing, and a type without a zero value is reported for the place that asks.
-/

namespace GoLua

theorem eq_ok_of_mapError {ε ε' α : Type} {x : Except ε α} {f : ε → ε'} {a : α}
    (h : x.mapError f = .ok a) : x = .ok a := by
  cases x with
  | error err => cases h
  | ok b => exact congrArg Except.ok (Except.ok.inj h)

theorem Field.zero_eq (f : Field) : f.zero = f.type.zero := by
  cases f with
  | mk name type embedded hostTag => rfl

/-- Each field has its own zero value. -/
theorem forall₂_of_fieldZeros {fields : List Field} {zeros : List String}
    (h : fieldZeros fields = .ok zeros) :
    List.Forall₂ (fun f zero => f.type.zero = .ok zero) fields zeros := by
  induction fields generalizing zeros with
  | nil =>
    obtain rfl := Except.ok.inj h
    exact .nil
  | cons f fields ih =>
    rw [fieldZeros, Field.zero_eq] at h
    rcases hzero : f.type.zero with culprit | zero
    · rw [hzero] at h
      cases h
    rcases hzeros : fieldZeros fields with culprit | rest
    · rw [hzero, hzeros] at h
      cases h
    rw [hzero, hzeros] at h
    obtain rfl := Except.ok.inj h
    exact .cons hzero (ih hzeros)

namespace Lower

variable {env : Env} {s s' : FunctionState} {e : Expr} {type : GoType} {fields : List Field}
  {zeros : List String}

theorem runIn_ofExcept {α : Type} (r : Except LowerError α) :
    (ofExcept r).runIn env s = (r.mapError .gap, s) := by
  cases r <;> rfl

theorem still_zeroFor (e : Expr) (type : GoType) : Still (zeroFor e type) :=
  .ofExcept _

theorem runIn_zeroFor (e : Expr) (type : GoType) :
    (zeroFor e type).runIn env s = ((type.zeroAt e.location).mapError .gap, s) :=
  runIn_ofExcept _

theorem runIn_zeroFor_eq_ok {zero : String}
    (h : (zeroFor e type).runIn env s = (.ok zero, s')) : type.zero = .ok zero ∧ s' = s := by
  rw [runIn_zeroFor] at h
  obtain ⟨hzero, rfl⟩ := Prod.mk.inj h
  exact ⟨eq_ok_of_mapError (eq_ok_of_mapError hzero), rfl⟩

/-- The zero values of several fields that are needed at a location. -/
def fieldZerosAt (fields : List Field) (location : Location) : Except LowerError (List String) :=
  (fieldZeros fields).mapError fun culprit => .unsupported (.zeroOf culprit) location

/-- Asking for the zero values of fields one by one gives all of them, or the failure of the first
field that has none. -/
theorem runIn_zerosFor (e : Expr) (fields : List Field) :
    (fields.mapM fun f => zeroFor e f.type).runIn env s =
      ((fieldZerosAt fields e.location).mapError .gap, s) := by
  induction fields with
  | nil => rfl
  | cons f fields ih =>
    rw [List.mapM_cons, LowerM.runIn_bind, runIn_zeroFor, GoType.zeroAt, fieldZerosAt, fieldZeros,
      Field.zero_eq]
    rcases f.type.zero with culprit | zero
    · rfl
    · dsimp only [Except.mapError]
      rw [LowerM.runIn_bind, ih, fieldZerosAt]
      rcases fieldZeros fields with culprit | zeros <;> rfl

theorem runIn_zerosFor_ok (h : fieldZeros fields = .ok zeros) (e : Expr) :
    (fields.mapM fun f => zeroFor e f.type).runIn env s = (.ok zeros, s) := by
  rw [runIn_zerosFor, fieldZerosAt, h]
  rfl

theorem runIn_zerosFor_eq_ok
    (h : (fields.mapM fun f => zeroFor e f.type).runIn env s = (.ok zeros, s')) :
    fieldZeros fields = .ok zeros ∧ s' = s := by
  rw [runIn_zerosFor] at h
  obtain ⟨hzeros, rfl⟩ := Prod.mk.inj h
  exact ⟨eq_ok_of_mapError (eq_ok_of_mapError hzeros), rfl⟩

end Lower

end GoLua
