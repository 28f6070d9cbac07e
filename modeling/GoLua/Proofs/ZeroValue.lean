import GoLua.Proofs.Run.Expression
import GoLua.Proofs.SourceOrder.Literal
import Mathlib.Logic.Relation

/-!
# Literals without elements

A literal of an array or a struct that says nothing about its elements is the zero value of its type.
The two are written apart: a literal puts texts into slots and asks for one zero value per element type
or field, where the zero value of a type goes down into all of it. This module brings them together
(`lower_literal_empty`).

* A literal without elements gets the zero values that it asks for, and nothing else is done. An array
  asks even if there is no place to fill, so one of length zero fails like any other
  (`runIn_indexedElements_nil`).
* `exists_zeroAs_iff` says which types have a zero value at all: those that are not made up of a tuple
  anywhere (`GoType.Holds`). What stands behind a pointer, in a slice or in any other reference does not
  count, since the zero value of a reference does not depend on it.
-/

namespace GoLua

open Lua

/-! ### Types with a zero value -/

namespace GoType

/-- What the values of a type are made up of: a declared type of what it stands for, an array of its
elements, and a struct of its fields. -/
inductive HasPart : GoType → GoType → Prop
  | definition {name : String} {definition : GoType} : HasPart (.named name definition) definition
  | element {elem : GoType} {len : Nat} : HasPart (.array elem len) elem
  | field {fields : List Field} {f : Field} (h : f ∈ fields) : HasPart (.struct fields) f.type

/-- A type is the other one, or is made up of it at some depth. -/
def Holds : GoType → GoType → Prop :=
  Relation.ReflTransGen HasPart

/-- No tuple is anywhere in the values of a type. -/
def TupleFree (t : GoType) : Prop :=
  ∀ types, ¬ t.Holds (.tuple types)

/-- A type is free of tuples if it is none, and all its parts are. -/
theorem tupleFree_iff {t : GoType} :
    t.TupleFree ↔ (∀ types, t ≠ .tuple types) ∧ ∀ part, t.HasPart part → part.TupleFree := by
  constructor
  · intro h
    refine ⟨fun types htuple => h types (htuple ▸ .refl), fun part hpart types hholds => ?_⟩
    exact h types (hholds.head hpart)
  · rintro ⟨hnot, hparts⟩ types hholds
    rcases hholds.cases_head with htuple | ⟨part, hpart, hholds⟩
    · exact hnot types htuple
    · exact hparts part hpart types hholds

/-- A name has no tuple if its definition has none. -/
theorem tupleFree_named {name : String} {definition : GoType} :
    (GoType.named name definition).TupleFree ↔ definition.TupleFree := by
  rw [tupleFree_iff]
  refine ⟨fun h => h.2 definition .definition, fun h => ⟨nofun, fun part hpart => ?_⟩⟩
  cases hpart
  exact h

theorem tupleFree_array {elem : GoType} {len : Nat} :
    (GoType.array elem len).TupleFree ↔ elem.TupleFree := by
  rw [tupleFree_iff]
  refine ⟨fun h => h.2 elem .element, fun h => ⟨nofun, fun part hpart => ?_⟩⟩
  cases hpart
  exact h

theorem tupleFree_struct {fields : List Field} :
    (GoType.struct fields).TupleFree ↔ ∀ f ∈ fields, f.type.TupleFree := by
  rw [tupleFree_iff]
  refine ⟨fun h f hf => h.2 f.type (.field hf), fun h => ⟨nofun, fun part hpart => ?_⟩⟩
  cases hpart with
  | field hf => exact h _ hf

/-- A type without parts is free of tuples, unless it is one. -/
theorem tupleFree_of_no_part {t : GoType} (hnot : ∀ types, t ≠ .tuple types)
    (hparts : ∀ part, ¬ t.HasPart part) : t.TupleFree :=
  tupleFree_iff.mpr ⟨hnot, fun part hpart => absurd hpart (hparts part)⟩

theorem not_tupleFree_tuple (types : List GoType) : ¬ (GoType.tuple types).TupleFree :=
  fun h => h types .refl

end GoType

/-- A result that is changed succeeds when the result does. -/
theorem exists_map_eq_ok {ε α β : Type} {x : Except ε α} {f : α → β} :
    (∃ b, x.map f = .ok b) ↔ ∃ a, x = .ok a := by
  cases x <;> simp [Except.map]

mutual

/-- A type has a zero value exactly if there is no tuple in it. -/
theorem exists_zeroAs_iff (t declared : GoType) :
    (∃ zero, t.zeroAs declared = .ok zero) ↔ t.TupleFree := by
  -- By recursion on the type; only names, arrays and structs look at a type inside of them.
  cases t with
  | named name definition =>
    rw [GoType.zeroAs, GoType.tupleFree_named]
    exact exists_zeroAs_iff definition declared
  | array elem len =>
    rw [GoType.zeroAs, exists_map_eq_ok, GoType.tupleFree_array]
    exact exists_zeroAs_iff elem elem
  | struct fields =>
    rw [GoType.zeroAs, exists_map_eq_ok, GoType.tupleFree_struct]
    exact exists_fieldZeros_iff fields
  | tuple types =>
    exact ⟨fun ⟨_, h⟩ => (nomatch h), fun h => absurd h (GoType.not_tupleFree_tuple types)⟩
  | basic _ | slice _ | map _ _ | pointer _ | interface _ | func _ | chan _ =>
    exact ⟨fun _ => GoType.tupleFree_of_no_part nofun nofun, fun _ => ⟨_, rfl⟩⟩
termination_by structural t

theorem exists_fieldZeros_iff (fs : List Field) :
    (∃ zeros, fieldZeros fs = .ok zeros) ↔ ∀ f ∈ fs, f.type.TupleFree := by
  cases fs with
  | nil => exact ⟨fun _ => nofun, fun _ => ⟨[], rfl⟩⟩
  | cons f fs =>
    rw [List.forall_mem_cons, ← exists_zero_iff f, ← exists_fieldZeros_iff fs]
    -- The fields have zero values if the first one has, and the other ones have.
    rcases hzero : f.zero with _ | zero
    · simp [fieldZeros, hzero, bind, Except.bind]
    · rcases hzeros : fieldZeros fs with _ | zeros
      · simp [fieldZeros, hzero, hzeros, bind, Except.bind]
      · simp [fieldZeros, hzero, hzeros, bind, Except.bind, pure, Except.pure]
termination_by structural fs

theorem exists_zero_iff (f : Field) : (∃ zero, f.zero = .ok zero) ↔ f.type.TupleFree := by
  cases f with
  | mk name type embedded hostTag => exact exists_zeroAs_iff type type
termination_by structural f

end

/-- The zero value is that of the underlying type, under the name of the declared one. -/
theorem zeroAs_underlying (t declared : GoType) :
    t.underlying.zeroAs declared = t.zeroAs declared := by
  fun_induction GoType.underlying t with
  | case1 name definition ih => rw [ih, GoType.zeroAs]
  | case2 => rfl

/-- The zero value of an array repeats that of its elements. -/
theorem zero_eq_of_underlying_array {t elem : GoType} {len : Nat}
    (h : t.underlying = .array elem len) :
    t.zero = elem.zero.map fun zero => arrayText (List.replicate len zero) elem len := by
  rw [GoType.zero, ← zeroAs_underlying, h, GoType.zeroAs, GoType.zero]

/-- The zero value of a struct is that of its fields. -/
theorem zero_eq_of_underlying_struct {t : GoType} {fields : List Field}
    (h : t.underlying = .struct fields) :
    t.zero = (fieldZeros fields).map (structText t (fields.map Field.name)) := by
  rw [GoType.zero, ← zeroAs_underlying, h, GoType.zeroAs]

/-! ### Literals without elements -/

namespace Lower

variable {env : Env} {s : FunctionState} {e : Expr}

/-- Every place of an array without elements holds the zero value. -/
theorem runIn_indexedElements_nil (self : Lowering) (e : Expr) (elem : GoType) (len : Nat) :
    (indexedElements self e [] elem (some len)).runIn env s =
      (((elem.zeroAt e.location).map (List.replicate len)).mapError .gap, s) := by
  rw [indexedElements, LowerM.runIn_bind, runIn_zeroFor]
  rcases elem.zeroAt e.location with err | zero <;> rfl

/-- Every field of a struct without elements holds its zero value. -/
theorem runIn_keyedFields_nil (self : Lowering) (e : Expr) (type : GoType) (fields : List Field) :
    (keyedFields self e type fields []).runIn env s =
      ((fieldZerosAt fields e.location).mapError .gap, s) := by
  rw [keyedFields, LowerM.runIn_bind, runIn_zerosFor]
  rcases fieldZerosAt fields e.location with err | zeros <;> rfl

/-- A literal without elements is written like the zero value of its type. -/
theorem runIn_composite_nil {type : GoType} (self : Lowering) (htype : env.type? s e.id = some type)
    (haggregate : type.throughPointer.isAggregate) :
    (composite self e []).runIn env s =
      (((type.throughPointer.zeroAt e.location).map Fragment.atom).mapError .gap, s) := by
  -- An aggregate is a struct or an array, and each is lowered without an element as its zero value
  -- is spelled.
  unfold GoType.isAggregate at haggregate
  split at haggregate
  · next fields hfields =>
    rw [runIn_composite_keyedStruct htype hfields rfl, LowerM.runIn_bind, runIn_keyedFields_nil,
      fieldZerosAt, GoType.zeroAt, zero_eq_of_underlying_struct hfields]
    rcases fieldZeros fields with culprit | zeros <;> rfl
  · next elem len helem =>
    rw [runIn_composite_array htype helem, LowerM.runIn_bind, runIn_indexedElements_nil,
      GoType.zeroAt, GoType.zeroAt, zero_eq_of_underlying_array helem]
    rcases elem.zero with culprit | zero <;> rfl
  · cases haggregate

end Lower

/-- An aggregate is no pointer. -/
theorem GoType.throughPointer_of_isAggregate {t : GoType} (h : t.isAggregate) :
    t.throughPointer = t := by
  unfold GoType.isAggregate at h
  unfold GoType.throughPointer GoType.pointerElem?
  split at h
  · next hfields => rw [hfields]; rfl
  · next helem => rw [helem]; rfl
  · cases h

/-- A type has a zero value if no tuple is anywhere in its values. -/
theorem exists_zeroAt_iff (t : GoType) (location : Location) :
    (∃ zero, t.zeroAt location = .ok zero) ↔ t.TupleFree := by
  rw [← exists_zeroAs_iff t t]
  unfold GoType.zeroAt GoType.zero
  cases t.zeroAs t <;> simp [Except.mapError]

/-- **A literal without elements is the zero value.** For an array or a struct, or a pointer to one with
the address left out, it gives the text of the zero value or the failure to have one, and does nothing but
record that its node has been lowered. A type has a zero value if no tuple is anywhere in its values. -/
theorem lower_literal_empty :
    (∀ (env : Env) (s : FunctionState) (node : Node) (type t : GoType) (desired : Option GoType),
      t.isAggregate → env.type? s node.id = some type → (type = t ∨ type.pointerElem? = some t) →
      env.constant? s node.id = none →
        (lower (.compositeLit node []) desired).runIn env s =
          (((t.zeroAt node.span.start).map Fragment.atom).mapError .gap,
            { s with lowered := node.id :: s.lowered })) ∧
    ∀ (t : GoType) (location : Location),
      (∃ zero, t.zeroAt location = .ok zero) ↔ ∀ types, ¬ t.Holds (.tuple types) := by
  refine ⟨fun env s node type t desired haggregate htype hof hvalue => ?_, exists_zeroAt_iff⟩
  -- The literal is of the aggregate, or of a pointer to it.
  obtain rfl : type.throughPointer = t := by
    rcases hof with rfl | hpointer
    · exact GoType.throughPointer_of_isAggregate haggregate
    · rw [GoType.throughPointer, hpointer, Option.getD_some]
  have hform := Lower.runIn_expression_form (e := .compositeLit node []) htype hvalue
    (Lower.within (4 * (Expr.compositeLit node []).size + 7)) desired
  exact hform.trans (Lower.runIn_composite_nil _ htype haggregate)

/-- A declared struct with an array of declared structs. -/
def gridType : GoType :=
  .named "main.Grid" (.struct
    [⟨"Cells", .array (.named "main.Cell" (.struct [⟨"Value", .basic .int, false, none⟩])) 2, false,
      none⟩, ⟨"Label", .basic .string, false, none⟩])

/-- `&main.Grid{}` with the address left out. -/
def emptyGrid : Build Node :=
  Build.node (.pointer gridType)

/-- Every field of every cell is written out; and an array of tuples has no zero value, however short
it is. -/
theorem lower_literal_empty_emptyGrid :
    (lower (.compositeLit (emptyGrid.run {}).1 []) none).runIn
        { facts := (emptyGrid.run {}).2.facts } {} =
      (.ok (.atom ("__reg:NewInstance(\"main.Grid\", \x7b[\"Cells\"]=_gi_NewArray(\x7b" ++
          "[0]=__reg:NewInstance(\"main.Cell\", \x7b[\"Value\"]=0\x7d), " ++
          "__reg:NewInstance(\"main.Cell\", \x7b[\"Value\"]=0\x7d)\x7d, \"Struct\", 2), " ++
          "[\"Label\"]=\"\"\x7d)")),
        { ({} : FunctionState) with lowered := [(emptyGrid.run {}).1.id] }) ∧
      ¬ ∃ zero, (GoType.array .void 0).zeroAt ⟨"main.go", 1, 1⟩ = .ok zero := by
  constructor
  · refine (lower_literal_empty.1 { facts := (emptyGrid.run {}).2.facts } {} (emptyGrid.run {}).1
      (.pointer gridType) gridType none rfl (by decide +kernel) (.inr rfl) rfl).trans ?_
    rfl
  · rw [lower_literal_empty.2]
    exact fun h => h [] (.single .element)

end GoLua
