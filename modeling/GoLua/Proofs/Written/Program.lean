import GoLua.Lower.Selector
import GoLua.Proofs.Text.Fragments
import GoLua.Proofs.Text.Inert

/-!
# What the program brings in

The names of a program end up in emitted text: those of its entities as they are, those of fields in
chains of accesses, those of types as quoted texts in patterns. `Env.Plain V` says that all facts about
a program keep to a vocabulary, and that what stands in patterns is inert. It is asked of the facts
alone, since no rule takes text from a tree.
-/

namespace GoLua

open Lua Text

/-! ### Types -/

/-- The types that a type is made of directly. -/
def GoType.parts : GoType → List GoType
  | .basic _ | .interface _ => []
  | .array elem _ | .slice elem | .pointer elem | .chan elem => [elem]
  | .map key elem => [key, elem]
  | .struct fields => fields.map Field.type
  | .func sig => sig.recv.toList ++ sig.params ++ sig.results
  | .named _ definition => [definition]
  | .tuple types => types

/-- A type and all types that it is made of have a property. -/
inductive GoType.All (P : GoType → Prop) : GoType → Prop where
  | intro {t : GoType} (here : P t) (parts : ∀ p ∈ t.parts, GoType.All P p) : GoType.All P t

/-- A field whose name is inert and in the vocabulary. So is its tag, unless it may be any text. -/
structure Field.Plain (V : Vocabulary) (f : Field) : Prop where
  name : FieldName V f.name
  inert : Inert f.name
  tag : ∀ tag, f.hostTag = some tag → ¬ V.strict → Inert tag

/-- A type whose text is inert, and whose fields are plain. -/
structure GoType.Plain (V : Vocabulary) (t : GoType) : Prop where
  text : Inert t.text
  fields : ∀ {fields}, t = .struct fields → ∀ f ∈ fields, f.Plain V

/-- A type of which all is plain. -/
abbrev GoType.Spelled (V : Vocabulary) (t : GoType) : Prop :=
  t.All (GoType.Plain V)

section

variable {V : Vocabulary} {t : GoType}

namespace GoType

/-- What holds of all of a type holds of the type itself. -/
theorem All.here {P : GoType → Prop} (h : t.All P) : P t := by
  cases h
  assumption

/-- And of each of its parts. -/
theorem All.part {P : GoType → Prop} (h : t.All P) {p : GoType} (hp : p ∈ t.parts) : p.All P := by
  cases h with
  | intro _ parts => exact parts p hp

namespace Spelled

theorem inert (h : t.Spelled V) : Inert t.text :=
  h.here.text

theorem definition {name : String} (h : (GoType.named name t).Spelled V) : t.Spelled V :=
  h.part (by simp [parts])

theorem underlying (h : t.Spelled V) : t.underlying.Spelled V := by
  fun_induction GoType.underlying t with
  | case1 name d ih => exact ih h.definition
  | case2 => exact h

/-- The parts of the underlying type can be spelled. -/
theorem part_of_underlying (h : t.Spelled V) {u p : GoType} (hu : t.underlying = u)
    (hp : p ∈ u.parts) : p.Spelled V :=
  (hu ▸ h.underlying).part hp

/-- So can what a pointer refers to. -/
theorem pointerElem {elem : GoType} (h : t.Spelled V) (helem : t.pointerElem? = some elem) :
    elem.Spelled V := by
  unfold GoType.pointerElem? at helem
  split at helem
  · next hu =>
    obtain rfl := Option.some.inj helem
    exact h.part_of_underlying hu (by simp [parts])
  · cases helem

/-- So can the type behind a pointer. -/
theorem throughPointer (h : t.Spelled V) : t.throughPointer.Spelled V := by
  unfold GoType.throughPointer
  cases helem : t.pointerElem? with
  | none => exact h
  | some elem => exact h.pointerElem helem

/-- So can the fields, by name and by type. -/
theorem field {fields : List Field} (h : t.Spelled V) (hfields : t.fields? = some fields) :
    ∀ f ∈ fields, f.Plain V ∧ f.type.Spelled V := by
  unfold GoType.fields? at hfields
  split at hfields
  · next fs hu =>
    obtain rfl := Option.some.inj hfields
    have hstruct : (GoType.struct fs).Spelled V := hu ▸ h.underlying
    exact fun f hf => ⟨hstruct.here.fields rfl f hf, hstruct.part (List.mem_map_of_mem hf)⟩
  · cases hfields

/-- So can the types of a signature. -/
theorem signature {sig : Signature} (h : t.Spelled V) (hsig : t.signature? = some sig) :
    (∀ p ∈ sig.params, p.Spelled V) ∧ ∀ r ∈ sig.results, r.Spelled V := by
  unfold GoType.signature? at hsig
  split at hsig
  · next s hu =>
    obtain rfl := Option.some.inj hsig
    exact ⟨fun p hp => h.part_of_underlying hu (by simp [parts, hp]),
      fun r hr => h.part_of_underlying hu (by simp [parts, hr])⟩
  · cases hsig

/-! ### Types that lowering makes -/

theorem basic (k : Kind) : (GoType.basic k).Spelled V := by
  have htext : Inert (GoType.basic k).text := by cases k <;> decide
  exact .intro ⟨htext, fun h => by cases h⟩ fun _ h => by simp [parts] at h

theorem pointer (h : t.Spelled V) : (GoType.pointer t).Spelled V := by
  refine .intro ⟨inert_append (by decide) h.inert, fun h => by cases h⟩ fun p hp => ?_
  obtain rfl := List.mem_singleton.mp hp
  exact h

/-- The texts of such types are inert. -/
theorem inert_typeTexts {types : List GoType} (h : ∀ t ∈ types, t.Spelled V) :
    ∀ text ∈ typeTexts types, Inert text := by
  induction types with
  | nil => exact fun _ h => absurd h List.not_mem_nil
  | cons t types ih =>
    intro text htext
    rcases List.mem_cons.mp htext with rfl | htext
    · exact (h t (by simp)).inert
    · exact ih (fun t ht => h t (by simp [ht])) text htext

/-- A tuple of them can be spelled. -/
theorem tuple {types : List GoType} (h : ∀ t ∈ types, t.Spelled V) :
    (GoType.tuple types).Spelled V :=
  .intro ⟨inert_parenthesized (inert_commaSeparated (inert_typeTexts h)), fun h => by cases h⟩
    fun p hp => h p hp

/-- A function of one result, without a receiver. -/
theorem func {params : List GoType} {result : GoType} (hparams : ∀ p ∈ params, p.Spelled V)
    (hresult : result.Spelled V) :
    (GoType.func { params, results := [result] }).Spelled V := by
  refine .intro ⟨?_, fun h => by cases h⟩ fun p hp => ?_
  · exact inert_append (inert_append (by decide)
      (inert_parenthesized (inert_commaSeparated (inert_typeTexts hparams))))
      (inert_append (by decide) hresult.inert)
  · rcases List.mem_append.mp hp with hp | hp
    · exact hparams p (by simpa using hp)
    · obtain rfl := List.mem_singleton.mp hp
      exact hresult

/-! ### Zero values -/

/-- The zero value of a spelled type is inert. -/
theorem inert_zero {zero : String} (h : t.Spelled V) (hzero : t.zero = .ok zero) : Inert zero := by
  -- The zero values follow the type, so one rule for each form is enough.
  have hforms : ZeroForms (fun t => t.Spelled V) Inert :=
    { definition := definition
      element := fun h => h.part (by simp [parts])
      field := fun h f hf => h.part (List.mem_map_of_mem hf)
      kind := inert_kindZero
      array := fun _ hzero => inert_arrayText
        (fun e he => by rw [List.eq_of_mem_replicate he]; exact hzero) _ _
      slice := fun h => inert_nilSliceText (inert (h.part (by simp [parts])))
      map := fun h => inert_nilMapText (inert (h.part (by simp [parts])))
        (inert (h.part (by simp [parts])))
      struct := fun {_ fields _} hdeclared h hzeros => by
        refine inert_structText hzeros (fun name hname => ?_) hdeclared.inert
        obtain ⟨f, hf, rfl⟩ := List.mem_map.mp hname
        exact (h.here.fields rfl f hf).inert
      null := by decide
      func := by decide
      chan := by decide }
  exact hforms.of_type t h h hzero

end Spelled

end GoType

/-! ### Ways along fields -/

/-- A way whose names are plain, to a field of a spelled type. -/
structure FieldPath.Spelled (V : Vocabulary) (path : FieldPath) : Prop where
  names : ∀ name ∈ path.names, FieldName V name
  inert : ∀ name ∈ path.names, Inert name
  type : path.type.Spelled V
  host : ∀ holder tag, path.host = some (holder, tag) →
    FieldName V holder ∧ Inert holder ∧ (¬ V.strict → Inert tag)

/-- A property is reached by the first field of a struct, and named by the tag of another. -/
theorem spelled_hostProperty {config : Config} {fields : List Field} {f : Field}
    (hfields : ∀ f ∈ fields, f.Plain V) (hf : f.Plain V) {holder tag : String}
    (h : hostProperty? config fields f = some (holder, tag)) :
    FieldName V holder ∧ Inert holder ∧ (¬ V.strict → Inert tag) := by
  unfold hostProperty? at h
  split at h
  · next tag' first htag hfirst =>
    split at h
    · obtain ⟨rfl, rfl⟩ := Prod.mk.inj (Option.some.inj h)
      have hplain := hfields first (List.mem_of_mem_head? hfirst)
      exact ⟨hplain.name, hplain.inert, hf.tag _ htag⟩
    · cases h
  · cases h

/-- The path of a selection takes its names from the fields of the type. -/
theorem spelled_resolvePath {config : Config} {t : GoType} {index : List Nat} {path : FieldPath}
    (ht : t.Spelled V) (h : resolvePath config t index = .ok path) : path.Spelled V := by
  -- By induction on the index, field by field.
  induction index generalizing t path with
  | nil =>
    obtain rfl := Except.ok.inj h
    exact ⟨fun _ h => absurd h List.not_mem_nil, fun _ h => absurd h List.not_mem_nil, ht,
      fun _ _ h => by cases h⟩
  | cons i rest ih =>
    rw [resolvePath] at h
    split at h
    · cases h
    next fields hfields =>
    split at h
    · cases h
    next field hfield =>
    have hall := ht.throughPointer.field hfields
    obtain ⟨hplain, htype⟩ := hall field (List.mem_of_getElem? hfield)
    cases hpath : resolvePath config field.type rest with
    | error construct => simp [hpath, bind, Except.bind] at h
    | ok p =>
      have hp := ih htype hpath
      simp only [hpath, bind, Except.bind, pure, Except.pure] at h
      obtain rfl := Except.ok.inj h
      refine ⟨fun name hname => ?_, fun name hname => ?_, hp.type, fun holder tag hhost => ?_⟩
      · rcases List.mem_cons.mp hname with rfl | hname
        · exact hplain.name
        · exact hp.names name hname
      · rcases List.mem_cons.mp hname with rfl | hname
        · exact hplain.inert
        · exact hp.inert name hname
      · -- Only the last field of the way may stand for a property.
        dsimp only at hhost
        split at hhost
        · exact spelled_hostProperty (fun f hf => (hall f hf).1) hplain hhost
        · exact hp.host holder tag hhost

end

/-! ### Facts -/

/-- An entity of the program, by its name and that of its package. -/
structure Object.Plain (V : Vocabulary) (obj : Object) : Prop where
  name : V.name obj.name
  package : ∀ package, obj.package = some package → V.name (packageName package)

/-- A constant that may name a property. -/
def Constant.Plain (V : Vocabulary) (c : Constant) : Prop :=
  ∀ text, c.toString? = some text → FieldName V text

/-- How a selector of the program was resolved. -/
structure Selection.Plain (V : Vocabulary) (selection : Selection) : Prop where
  recv : selection.recv.Spelled V
  name : V.name selection.obj.name
  inert : Inert selection.obj.name

/-- Facts that keep to a vocabulary. -/
structure Facts.Plain (V : Vocabulary) (facts : Facts) : Prop where
  type : ∀ {id t}, facts.types.get? id = some t → t.Spelled V
  object : ∀ {id obj}, (facts.bindingOf id).object? = some obj → obj.Plain V
  selection : ∀ {id selection}, facts.selections.get? id = some selection → selection.Plain V

/-- What a table finds is among its facts. -/
theorem mem_of_get?_eq_some {α : Type} {table : NodeTable α} {id : NodeId} {a : α}
    (h : table.get? id = some a) : a ∈ table.entries.map Prod.snd := by
  have hfind (entries : List (NodeId × α)) (h : NodeTable.find? id entries = some a) :
      a ∈ entries.map Prod.snd := by
    induction entries with
    | nil => cases h
    | cons e entries ih =>
      rw [NodeTable.find?] at h
      split at h
      · obtain rfl := Option.some.inj h
        exact List.mem_cons_self
      · exact List.mem_cons_of_mem _ (ih h)
  exact hfind table.entries h

/-- Facts keep to a vocabulary if each of them does. -/
theorem Facts.plain_of_forall {V : Vocabulary} {facts : Facts}
    (types : ∀ t ∈ facts.types.entries.map Prod.snd, t.Spelled V)
    (definitions : ∀ obj ∈ facts.definitions.entries.map Prod.snd, obj.Plain V)
    (uses : ∀ obj ∈ facts.uses.entries.map Prod.snd, obj.Plain V)
    (selections : ∀ selection ∈ facts.selections.entries.map Prod.snd, selection.Plain V) :
    facts.Plain V where
  type h := types _ (mem_of_get?_eq_some h)
  object {id obj} h := by
    unfold Facts.bindingOf at h
    split at h
    · next hdefinition =>
      obtain rfl := Option.some.inj h
      exact definitions _ (mem_of_get?_eq_some hdefinition)
    · next huse =>
      obtain rfl := Option.some.inj h
      exact uses _ (mem_of_get?_eq_some huse)
    · cases h
  selection h := selections _ (mem_of_get?_eq_some h)

/-- Bodies of function literals that keep to a vocabulary. -/
structure BodySource.Plain (V : Vocabulary) (source : BodySource) : Prop where
  code : ∀ {requests function}, source requests = .ok function → V.code function.code
  captured : ∀ {requests function}, source requests = .ok function →
    ∀ name ∈ function.captured, V.name name
  failure : ∀ {requests failure}, source requests = .error failure → V.failure failure

/-- What lowering reads keeps to a vocabulary. -/
structure Env.Plain (V : Vocabulary) (env : Env) : Prop where
  facts : env.facts.Plain V
  bodies : ∀ source, env.bodies = some source → BodySource.Plain V source

/-- A right operand is lowered in a plain environment too. -/
theorem Env.Plain.inRightOf {V : Vocabulary} {env : Env} (h : env.Plain V) (id : NodeId) :
    (env.inRightOf id).Plain V :=
  ⟨h.facts, h.bodies⟩

/-! ### Trees -/

/-- An expression that is no constant and not `nil`, whatever brackets are around it. -/
def Expr.IsValue (facts : Facts) : Expr → Prop
  | .paren n inner => facts.constants.get? n.id = none ∧ inner.IsValue facts
  | .ident n _ => facts.constants.get? n.id = none ∧
    ∀ obj, (facts.bindingOf n.id).object? = some obj → obj.kind ≠ .nil
  | e => facts.constants.get? e.id = none
termination_by structural e => e

/-- A value has no constant of its own. -/
theorem Expr.IsValue.constant {facts : Facts} {e : Expr} (h : e.IsValue facts) :
    facts.constants.get? e.id = none := by
  cases e with
  | paren n inner => exact h.1
  | ident n name => exact h.1
  | _ => exact h

/-- Whether a selection leads along fields: to a field, or to a method of an embedded one. -/
def Selection.isAlongFields (selection : Selection) : Bool :=
  match selection.kind with
  | .fieldVal => true
  | .methodVal => 1 < selection.index.length
  | .methodExpr => false

/-- Whether a selection is that of a method of host objects whose first argument is the key of a
property. -/
def Selection.takesKey (config : Config) (selection : Selection) : Bool :=
  selection.kind == .methodVal &&
    (selection.obj.type.signature?.bind Signature.recv).any config.isHostObject &&
    ["Get", "Set", "Delete", "Call"].contains selection.obj.name

/-- A node that is in order where names matter: a way along fields starts at a value, since constants
and `nil` have none, and a constant that is the key of a property is no other name than those of the
vocabulary. -/
def Expr.Regular (V : Vocabulary) (env : Env) : Expr → Prop
  | .selector n base _ => base.IsValue env.facts ∨ n.id < firstSyntheticId ∧
    ∀ selection, env.facts.selections.get? n.id = some selection → selection.isAlongFields = false
  | .call _ func args _ => ∀ n base sel selection, func.unparen = .selector n base sel →
    env.facts.selections.get? n.id = some selection → selection.takesKey env.config →
      ∀ key ∈ args.head?, ∀ c, env.facts.constants.get? key.id = some c → c.Plain V
  | _ => True

end GoLua
