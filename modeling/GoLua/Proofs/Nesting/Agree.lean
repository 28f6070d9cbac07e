import GoLua.Proofs.Brackets.Mirror
import GoLua.Proofs.Template.Repeated

/-!
# Runs that agree

Two computations *agree* on a ground (`Ground.AgreeBy`) if from every state of the ground they have the same
outcome, and leave the same state, which is one of the ground again. So one may take the place of the other.

A `Ground` says what is known of a state: how deep pointers are nested in the types recorded for the nodes of
a tree, and which state it comes after. What lowering notes of a node that it makes stays as it is, so it
does not have to be known from the start (`Ground.Made`). It fits the ground as well, because the type of a
new node is a part of a type that has been found (`GoType.Part`), or a pointer to one that is none
(`GoType.PointsWithin.pointer`).

Computations that agree are put after each other (`AgreeBy.bind`). What asks for no lowering agrees with
itself, because it leaves the ground (`AgreeBy.of_still`, `AgreeBy.of_quiet`).
-/

namespace GoLua

open Lower

/-! ### Sizes of types -/

mutual

/-- How many types a type is written with, itself included. -/
def GoType.size : GoType → Nat
  | .array elem _ | .slice elem | .pointer elem | .chan elem => elem.size + 1
  | .map key elem => key.size + elem.size + 1
  | .struct fields => fieldsSize fields + 1
  | .func signature => signature.size + 1
  | .named _ definition => definition.size + 1
  | .tuple types => typesSize types + 1
  | .basic _ | .interface _ => 1
termination_by structural t => t

/-- The sizes of several types. -/
def typesSize : List GoType → Nat
  | [] => 0
  | t :: ts => t.size + typesSize ts
termination_by structural ts => ts

/-- The sizes of the types of several fields. -/
def fieldsSize : List Field → Nat
  | [] => 0
  | ⟨_, type, _, _⟩ :: fs => type.size + fieldsSize fs
termination_by structural fs => fs

/-- The size of the type of a receiver. -/
def recvSize : Option GoType → Nat
  | none => 0
  | some type => type.size
termination_by structural o => o

/-- The sizes of the types in a signature. -/
def Signature.size : Signature → Nat
  | ⟨recv, params, results, _⟩ => recvSize recv + typesSize params + typesSize results
termination_by structural s => s

end

/-! ### Pointers in types -/

namespace GoType

/-- How many pointers are right inside one another at the top of a type, whatever names are in between. -/
def pointerDepth : GoType → Nat
  | .named _ definition => definition.pointerDepth
  | .pointer elem => elem.pointerDepth + 1
  | _ => 0
termination_by structural t => t

/-- What lowering finds in a type when it looks through names, pointers, channels, fields and tuples. -/
inductive Part : GoType → GoType → Prop where
  | self (t : GoType) : Part t t
  | definition {name : String} {t u : GoType} (h : Part t u) : Part (.named name t) u
  | pointee {t u : GoType} (h : Part t u) : Part (.pointer t) u
  | received {t u : GoType} (h : Part t u) : Part (.chan t) u
  | field {fields : List Field} {f : Field} {u : GoType} (hf : f ∈ fields) (h : Part f.type u) :
      Part (.struct fields) u
  | element {types : List GoType} {t u : GoType} (ht : t ∈ types) (h : Part t u) :
      Part (.tuple types) u

/-- Nowhere in a type are more than `depth` pointers right inside one another. -/
def PointsWithin (t : GoType) (depth : Nat) : Prop :=
  ∀ u, Part t u → u.pointerDepth ≤ depth

variable {t u v elem : GoType} {depth : Nat}

/-- What is in a part of a type is in the type. -/
theorem Part.trans (h : Part t u) (h' : Part u v) : Part t v := by
  induction h with
  | self => exact h'
  | definition _ ih => exact .definition (ih h')
  | pointee _ ih => exact .pointee (ih h')
  | received _ ih => exact .received (ih h')
  | field hf _ ih => exact .field hf (ih h')
  | element ht _ ih => exact .element ht (ih h')

/-- The definition of a named type is a part of it. -/
theorem part_underlying (t : GoType) : Part t t.underlying := by
  fun_induction underlying t with
  | case1 name definition ih => exact .definition ih
  | case2 t => exact .self t

theorem part_of_pointerElem? (h : t.pointerElem? = some elem) : Part t elem :=
  (part_underlying t).trans (underlying_of_pointerElem? h ▸ .pointee (.self elem))

theorem part_throughPointer (t : GoType) : Part t t.throughPointer := by
  unfold throughPointer
  cases h : t.pointerElem? with
  | none => exact .self t
  | some elem => exact part_of_pointerElem? h

/-- What holds for all that a type is written with holds for a part of it. -/
theorem PointsWithin.part (h : t.PointsWithin depth) (hpart : Part t u) : u.PointsWithin depth :=
  fun v hv => h v (hpart.trans hv)

/-- Naming a type puts no pointer before it. -/
@[simp] theorem pointerDepth_underlying (t : GoType) : t.underlying.pointerDepth = t.pointerDepth := by
  fun_induction underlying t with
  | case1 name definition ih => exact ih
  | case2 t => rfl

/-- A pointer is one deeper than what it points to. -/
theorem pointerDepth_of_pointerElem? (h : t.pointerElem? = some elem) :
    t.pointerDepth = elem.pointerDepth + 1 := by
  rw [← pointerDepth_underlying, underlying_of_pointerElem? h, pointerDepth]

/-- What is no pointer has depth zero. -/
theorem pointerDepth_of_not_isPointer (h : t.isPointer = false) : t.pointerDepth = 0 := by
  rw [← pointerDepth_underlying]
  unfold isPointer at h
  have hnamed := underlying_ne_named t
  cases hu : t.underlying <;> simp_all [pointerDepth]

/-- A pointer to what is none. -/
theorem PointsWithin.pointer (h : t.PointsWithin depth) (ht : t.isPointer = false)
    (hdepth : 0 < depth) : (GoType.pointer t).PointsWithin depth := by
  intro u hu
  cases hu with
  | self =>
    rw [pointerDepth, pointerDepth_of_not_isPointer ht]
    exact hdepth
  | pointee hu => exact h u hu

theorem pointsWithin_basic (kind : Kind) (depth : Nat) : (GoType.basic kind).PointsWithin depth := by
  intro u hu
  cases hu
  exact Nat.zero_le depth

theorem pointsWithin_func (sig : Signature) (depth : Nat) :
    (GoType.func sig).PointsWithin depth := by
  intro u hu
  cases hu
  exact Nat.zero_le depth

/-- The types of a tuple are written with what the tuple is written with, and no pointer comes
before them. -/
theorem PointsWithin.tuple {types : List GoType} (h : ∀ t ∈ types, t.PointsWithin depth) :
    (GoType.tuple types).PointsWithin depth := by
  intro u hu
  cases hu with
  | self => exact Nat.zero_le depth
  | element ht hu => exact h _ ht u hu

/-- A limit may be raised. -/
theorem PointsWithin.mono {depth' : Nat} (h : t.PointsWithin depth) (hle : depth ≤ depth') :
    t.PointsWithin depth' :=
  fun u hu => Nat.le_trans (h u hu) hle

theorem size_le_fieldsSize {fields : List Field} {f : Field} (h : f ∈ fields) :
    f.type.size ≤ fieldsSize fields := by
  induction fields with
  | nil => cases h
  | cons g rest ih =>
    obtain ⟨name, type, embedded, hostTag⟩ := g
    rw [fieldsSize]
    rcases List.mem_cons.mp h with rfl | h
    · exact Nat.le_add_right _ _
    · have hle := ih h
      omega

theorem size_le_typesSize {types : List GoType} (h : t ∈ types) : t.size ≤ typesSize types := by
  induction types with
  | nil => cases h
  | cons u rest ih =>
    rw [typesSize]
    rcases List.mem_cons.mp h with rfl | h
    · exact Nat.le_add_right _ _
    · have hle := ih h
      omega

/-- Each pointer before a type is one of the steps that its size counts. -/
theorem pointerDepth_le_size (t : GoType) : t.pointerDepth ≤ t.size := by
  fun_induction pointerDepth t with
  | case1 name definition ih => rw [size]; omega
  | case2 elem ih => rw [size]; omega
  | case3 => exact Nat.zero_le _

/-- A part is not larger than the whole. -/
theorem Part.size_le (h : Part t u) : u.size ≤ t.size := by
  induction h with
  | self => exact Nat.le_refl _
  -- A name, a pointer and a channel each count for one step of their own.
  | definition _ ih | pointee _ ih | received _ ih => rw [size]; omega
  | field hf _ ih =>
    have hle := size_le_fieldsSize hf
    rw [size]
    omega
  | element ht _ ih =>
    have hle := size_le_typesSize ht
    rw [size]
    omega

/-- Pointers are not nested deeper than the type is large. -/
theorem pointsWithin_size (t : GoType) : t.PointsWithin t.size :=
  fun u hu => Nat.le_trans (pointerDepth_le_size u) hu.size_le

end GoType

/-! ### Grounds -/

/-- What is known of the states of a run: the nodes of the tree, how deep pointers are nested in the types
that are recorded for them, and a state that all others come after. -/
structure Ground where
  tree : NodeId → Prop
  depth : Nat
  base : FunctionState
  pos : 0 < depth

namespace Ground

/-- The same ground from a later state on. -/
def after (G : Ground) (s : FunctionState) : Ground :=
  { G with base := s }

/-- Nodes that have been made, with a type that fits the ground. -/
structure Made (G : Ground) (id : NodeId) : Prop where
  old : id < G.base.nextSynthetic
  noted : ∃ type, G.base.overlay.types.get? id = some type ∧ type.PointsWithin G.depth

/-- **States of a ground.** -/
structure Holds (G : Ground) (env : Env) (s : FunctionState) : Prop where
  later : Later G.base s
  types : ∀ id, G.tree id → ∀ type, env.type? s id = some type → type.PointsWithin G.depth
  selections : ∀ id, G.tree id → ∀ selection, env.selection? s id = some selection →
    selection.recv.PointsWithin G.depth

variable {G : Ground} {env : Env} {s s' : FunctionState} {type found : GoType}

/-- What a look-up answers is what is recorded. -/
theorem type?_of_typeOf {e : Expr} (h : ((typeOf e).runIn env s).1 = .ok type) :
    env.type? s e.id = some type := by
  rw [runIn_typeOf] at h
  cases hfound : env.type? s e.id with
  | none => rw [hfound] at h; cases h
  | some found =>
    rw [hfound] at h
    cases h
    rfl

/-- What is noted last is found. -/
theorem type?_of_insert {id : NodeId} (hoverlay : s'.overlay.types = s.overlay.types.insert id type)
    (h : env.type? s' id = some found) : type = found := by
  rw [Env.type?, hoverlay, NodeTable.get?_insert_self] at h
  exact Option.some.inj h

/-- After a state, what is known of the run is still known of that state. -/
theorem Holds.after (h : G.Holds env s) : (G.after s).Holds env s :=
  ⟨.refl s, h.types, h.selections⟩

/-- What is known after a state is known on the ground that the state goes back to. -/
theorem Holds.before {t : FunctionState} (h : (G.after t).Holds env s) (ht : Later G.base t) :
    G.Holds env s :=
  ⟨ht.trans h.later, h.types, h.selections⟩

/-- What holds from a state on holds from an earlier one on. -/
theorem Holds.rebase {t u : FunctionState} (h : (G.after u).Holds env s) (ht : Later t u) :
    (G.after t).Holds env s :=
  ⟨ht.trans h.later, h.types, h.selections⟩

/-- Which connective is being lowered does not bear on the facts. -/
theorem Holds.inRightOf (h : G.Holds env s) (id : NodeId) : G.Holds (env.inRightOf id) s :=
  ⟨h.later, h.types, h.selections⟩

theorem Holds.notInRightOf {id : NodeId} (h : G.Holds (env.inRightOf id) s) : G.Holds env s :=
  ⟨h.later, h.types, h.selections⟩

/-- No node is made, and nothing is noted of any. -/
theorem Holds.of_quiet (h : G.Holds env s) (hnodes : s'.nextSynthetic = s.nextSynthetic)
    (hoverlay : s'.overlay = s.overlay) : (G.after s).Holds env s' where
  later := .of_still hnodes hoverlay
  types id hid type htype := h.types id hid type (by rwa [Env.type?, hoverlay] at htype)
  selections id hid selection hsel :=
    h.selections id hid selection (by rwa [Env.selection?, hoverlay] at hsel)

/-- A node is made, and what is noted of it fits the ground. -/
theorem Holds.of_new (h : G.Holds env s) (hnodes : s'.nextSynthetic = s.nextSynthetic + 1)
    (hagrees : ∀ id, s.nextSynthetic ≠ id → s.overlay.AgreesAt s'.overlay id)
    (htype : ∀ type, env.type? s' s.nextSynthetic = some type → type.PointsWithin G.depth)
    (hsel : G.tree s.nextSynthetic → ∀ selection, env.selection? s' s.nextSynthetic = some selection →
      selection.recv.PointsWithin G.depth) : (G.after s).Holds env s' where
  later := .of_new hnodes hagrees
  types id hid type hfound := by
    -- Nothing keeps the tree from having a node of the same name as the one that is made.
    by_cases hnew : s.nextSynthetic = id
    · exact htype type (hnew ▸ hfound)
    · exact h.types id hid type (((hagrees id hnew).type? env).symm.trans hfound)
  selections id hid selection hfound := by
    by_cases hnew : s.nextSynthetic = id
    · exact hsel (hnew ▸ hid) selection (hnew ▸ hfound)
    · exact h.selections id hid selection (((hagrees id hnew).selection? env).symm.trans hfound)

/-! ### Agreeing -/

section

variable {α β : Type} {m m' n n' : LowerM α} {Q R : α → Prop}

/-- **Agreeing computations**: one may take the place of the other, and what they give satisfies `Q`. -/
structure AgreeBy (G : Ground) (Q : α → Prop) (m m' : LowerM α) : Prop where
  run : ∀ {env s}, G.Holds env s → m.runIn env s = m'.runIn env s ∧
    (G.after s).Holds env (m.runIn env s).2 ∧ ∀ a, (m.runIn env s).1 = .ok a → Q a

/-- Computations that agree, with nothing said of what they give. -/
abbrev Agree (G : Ground) (m m' : LowerM α) : Prop :=
  G.AgreeBy (fun _ => True) m m'

/-- Two lowerings agree on an expression. -/
def Same (G : Ground) (self other : Lowering) (e : Expr) : Prop :=
  ∀ desired, G.Agree (self e desired) (other e desired)

namespace AgreeBy

/-- What the results satisfy may be weakened. -/
theorem imp (h : G.AgreeBy Q m m') (hQ : ∀ a, Q a → R a) : G.AgreeBy R m m' where
  run hs :=
    let ⟨heq, hholds, hresult⟩ := h.run hs
    ⟨heq, hholds, fun a ha => hQ a (hresult a ha)⟩

/-- Runs that agree with some property of the results agree without one. -/
theorem any (h : G.AgreeBy Q m m') : G.Agree m m' :=
  h.imp fun _ _ => trivial

/-- A value without a run satisfies what is known of it. -/
theorem pure {a : α} (h : Q a) : G.AgreeBy Q (pure a) (pure a) where
  run hs := ⟨rfl, hs.after, fun _ ha => Except.ok.inj ha ▸ h⟩

/-- **One after the other.** -/
theorem bind {Q : β → Prop} {l l' : LowerM β} {f f' : β → LowerM α} (h : G.AgreeBy Q l l')
    (hf : ∀ b, Q b → G.AgreeBy R (f b) (f' b)) : G.AgreeBy R (l >>= f) (l' >>= f') where
  run := by
    intro env s hs
    obtain ⟨heq, hholds, hresult⟩ := h.run hs
    rw [LowerM.runIn_bind, LowerM.runIn_bind, ← heq]
    -- The second computations run only where the first one has succeeded.
    rcases hrun : l.runIn env s with ⟨err | b, s'⟩ <;> rw [hrun] at hholds hresult
    · exact ⟨rfl, hholds, fun a ha => by cases ha⟩
    · obtain ⟨heq', hholds', hresult'⟩ := (hf b (hresult b rfl)).run (hholds.before hs.later)
      exact ⟨heq', hholds'.rebase hholds.later, hresult'⟩

/-- What is made of a result alone. -/
theorem map {l l' : LowerM β} (g : β → α) (h : G.Agree l l') : G.Agree (g <$> l) (g <$> l') := by
  rw [map_eq_pure_bind, map_eq_pure_bind]
  exact h.bind fun _ _ => pure trivial

/-- The same decision. -/
theorem ite {c : Prop} [Decidable c] (h : c → G.AgreeBy Q m m') (h' : ¬ c → G.AgreeBy Q n n') :
    G.AgreeBy Q (if c then m else n) (if c then m' else n') := by
  split
  · next hc => exact h hc
  · next hc => exact h' hc

/-- A computation that leaves the ground, and what it gives. -/
theorem of_run (h : ∀ {env s}, G.Holds env s → (G.after s).Holds env (m.runIn env s).2 ∧
    ∀ a, (m.runIn env s).1 = .ok a → Q a) : G.AgreeBy Q m m where
  run hs := ⟨rfl, h hs⟩

end AgreeBy

/-! ### Operations -/

namespace AgreeBy

/-- What neither makes a node nor notes anything agrees with itself. -/
theorem of_quiet (h : ∀ env s, (m.runIn env s).2.nextSynthetic = s.nextSynthetic ∧
    (m.runIn env s).2.overlay = s.overlay) : G.Agree m m :=
  .of_run fun hs => ⟨hs.of_quiet (h _ _).1 (h _ _).2, fun _ _ => trivial⟩

/-- What only looks agrees with itself, and gives what is known of what it finds. -/
theorem of_look (h : Still m)
    (hQ : ∀ {env s}, G.Holds env s → ∀ a, (m.runIn env s).1 = .ok a → Q a) : G.AgreeBy Q m m :=
  .of_run fun {env s} hs => ⟨by rw [h env s]; exact hs.after, hQ hs⟩

/-- What only looks agrees with itself. -/
theorem of_still (h : Still m) : G.Agree m m :=
  of_look h fun _ _ _ => trivial

theorem fail (err : LowerError) : G.AgreeBy Q (Lower.fail err) (Lower.fail err) :=
  .of_run fun hs => ⟨hs.after, fun a ha => by cases ha⟩

theorem unsupported {e : Expr} {construct : Construct} :
    G.AgreeBy Q (Lower.unsupported e construct) (Lower.unsupported e construct) :=
  .fail _

/-- Looking first. -/
theorem look {l : LowerM β} (h : Still l) {f f' : β → LowerM α}
    (hf : ∀ b, G.AgreeBy Q (f b) (f' b)) : G.AgreeBy Q (l >>= f) (l >>= f') :=
  (of_still h).bind fun b _ => hf b

theorem leave (stmt : Statement) (connective : Option NodeId) (write : Option HostWrite) :
    G.Agree (Lower.leave stmt connective write) (Lower.leave stmt connective write) :=
  of_quiet fun _ _ => ⟨rfl, rfl⟩

theorem newLocal (hint : String) : G.Agree (Lower.newLocal hint) (Lower.newLocal hint) :=
  of_quiet fun _ _ => ⟨rfl, rfl⟩

theorem newTemporary (hint : String) : G.Agree (Lower.newTemporary hint) (Lower.newTemporary hint) :=
  of_quiet fun _ _ => ⟨rfl, rfl⟩

/-- To keep a text in a temporary is to mint a name and to leave an assignment. -/
theorem keepInTemporary (hint value : String) :
    G.Agree (Lower.keepInTemporary hint value) (Lower.keepInTemporary hint value) :=
  of_quiet fun _ _ => ⟨rfl, rfl⟩

theorem accessorBox (key : String) : G.Agree (Lower.accessorBox key) (Lower.accessorBox key) := by
  refine of_quiet fun env s => ?_
  rw [runIn_accessorBox]
  unfold FunctionState.accessorBox
  split <;> exact ⟨rfl, rfl⟩

theorem reportError (message : String) (span : Span) :
    G.Agree (Lower.reportError message span) (Lower.reportError message span) :=
  of_quiet fun _ _ => ⟨rfl, rfl⟩

theorem recordLowered (e : Expr) : G.Agree (Lower.recordLowered e) (Lower.recordLowered e) := by
  refine of_quiet fun env s => ?_
  rw [runIn_recordLowered]
  split <;> exact ⟨rfl, rfl⟩

theorem requestBody (source : BodySource) (body : Nat) (sig : Signature) :
    G.Agree (Lower.requestBody source body sig) (Lower.requestBody source body sig) :=
  of_quiet fun _ _ => by rw [runIn_requestBody]; exact ⟨rfl, rfl⟩

theorem splitPending (mark : Nat) : G.Agree (Lower.splitPending mark) (Lower.splitPending mark) :=
  of_quiet fun _ _ => ⟨rfl, rfl⟩

theorem putBack (stmts : List Statement) : G.Agree (Lower.putBack stmts) (Lower.putBack stmts) :=
  of_quiet fun _ _ => ⟨rfl, rfl⟩

/-- The note of the connective is for the record of statements only. -/
theorem inRightOf (connective : NodeId) (h : G.Agree m m') :
    G.Agree (Lower.inRightOf connective m) (Lower.inRightOf connective m') where
  run hs :=
    let ⟨heq, hholds, _⟩ := h.run (hs.inRightOf connective)
    ⟨heq, hholds.notInRightOf, fun _ _ => trivial⟩

end AgreeBy

/-- The type of a node of the tree. -/
theorem agreeBy_typeOf {e : Expr} (h : G.tree e.id) :
    G.AgreeBy (·.PointsWithin G.depth) (typeOf e) (typeOf e) :=
  .of_look (still_typeOf e) fun hs type htype => hs.types _ h type (type?_of_typeOf htype)

/-- The type of a node that has been made. -/
theorem agreeBy_typeOf_made {e : Expr} (h : G.Made e.id) :
    G.AgreeBy (·.PointsWithin G.depth) (typeOf e) (typeOf e) := by
  refine .of_look (still_typeOf e) fun hs type htype => ?_
  obtain ⟨noted, hnoted, hwithin⟩ := h.noted
  have hfound := type?_of_typeOf htype
  rw [Env.type?, (hs.later.agrees _ h.old).types, hnoted] at hfound
  exact Option.some.inj hfound ▸ hwithin

/-- How a selector of the tree is resolved. -/
theorem agreeBy_selectionOf {e : Expr} (h : G.tree e.id) :
    G.AgreeBy (∀ selection ∈ ·, selection.recv.PointsWithin G.depth) (selectionOf e)
      (selectionOf e) :=
  .of_look (.view _) fun hs found hfound selection hsel => by
    cases hfound
    exact hs.selections _ h selection hsel

/-! ### New nodes -/

variable {type : GoType}

/-- A new node is recorded with its type, in both runs with the same number. -/
theorem agree_synthesizeNode (h : type.PointsWithin G.depth) (span : Span) :
    G.Agree (synthesizeNode type span) (synthesizeNode type span) := by
  refine .of_run fun {env s} hs => ⟨?_, fun ν hν => trivial⟩
  refine hs.of_new rfl (fun id hne => .insertType hne type) (fun found hfound => ?_)
    fun htree selection hsel => hs.selections _ htree selection hsel
  exact type?_of_insert rfl hfound ▸ h

/-- A new name. -/
theorem agreeBy_synthesizeUse (name : String) (obj : Object) (h : type.PointsWithin G.depth)
    (span : Span) :
    G.AgreeBy (fun e => ∃ ν, e = .ident ν name) (synthesizeUse name obj type span)
      (synthesizeUse name obj type span) := by
  refine .of_run fun {env s} hs => ⟨?_, fun e he => ?_⟩
  · refine hs.of_new rfl
      (fun id hne => (Overlay.AgreesAt.insertType hne type).trans (.insertUse hne obj))
      (fun found hfound => ?_) fun htree selection hsel => hs.selections _ htree selection hsel
    exact type?_of_insert rfl hfound ▸ h
  · cases he
    exact ⟨_, rfl⟩

/-- A node that is made with notes about it, which what follows may look at. -/
theorem AgreeBy.bind_new {l : LowerM β} {value : FunctionState → β}
    {step : FunctionState → FunctionState} {f g : β → LowerM α}
    (hrun : ∀ env s, l.runIn env s = (.ok (value s), step s))
    (hholds : ∀ {env s}, G.Holds env s → (G.after s).Holds env (step s))
    (hf : ∀ {env s}, G.Holds env s →
      (G.after (step s)).AgreeBy R (f (value s)) (g (value s))) :
    G.AgreeBy R (l >>= f) (l >>= g) where
  run := by
    intro env s hs
    -- Both runs take the first step in the same way, and go on from a state where everything that
    -- was known is known still.
    rw [LowerM.runIn_bind_ok (hrun env s), LowerM.runIn_bind_ok (hrun env s)]
    have hnew := hholds hs
    obtain ⟨heq, hleft, hresult⟩ := (hf hs).run hnew.after
    exact ⟨heq, hleft.rebase hnew.later, hresult⟩

/-- A node that is marked as suspending as soon as it is made. -/
theorem agreeBy_synthesizeSuspending (h : type.PointsWithin G.depth) (span : Span)
    {f g : Node → LowerM α}
    (hf : ∀ s ν, Later G.base s → (G.after s).Made ν.id → (G.after s).AgreeBy R (f ν) (g ν)) :
    G.AgreeBy R
      (synthesizeNode type span >>= fun ν => markSuspending ν.id >>= fun _ => f ν)
      (synthesizeNode type span >>= fun ν => markSuspending ν.id >>= fun _ => g ν) := by
  -- The state after the node is made and marked; only what is recorded of the new number differs.
  let step (s : FunctionState) : FunctionState :=
    s.newSyntheticId.2.modifyOverlay fun o =>
      { o with types := o.types.insert s.nextSynthetic type,
               suspending := o.suspending.mark s.nextSynthetic }
  have hrun (env : Env) (s : FunctionState) :
      (synthesizeNode type span >>= fun ν => markSuspending ν.id >>= fun _ => pure ν).runIn env s =
        (.ok ⟨s.nextSynthetic, span⟩, step s) := rfl
  have hagrees (s : FunctionState) (id : NodeId) (hne : s.nextSynthetic ≠ id) :
      s.overlay.AgreesAt (step s).overlay id :=
    (Overlay.AgreesAt.insertType hne type).trans (.mark hne)
  have hmarked := AgreeBy.bind_new (G := G) (R := R) (f := f) (g := g) hrun
    (fun {env s} hs => hs.of_new rfl (hagrees s) (fun found hfound => type?_of_insert rfl hfound ▸ h)
      fun htree selection hsel => hs.selections _ htree selection hsel)
    fun {env s} hs => hf (step s) _ (hs.later.trans (.of_new rfl (hagrees s)))
      ⟨Nat.lt_succ_self _, type, NodeTable.get?_insert_self _ _ _, h⟩
  simpa only [bind_assoc, pure_bind] using hmarked

/-- A node that is noted down as a resolved selector as soon as it is made. It is known to be one from
then on. -/
theorem agreeBy_synthesizeSelector (h : type.PointsWithin G.depth) (span : Span)
    {selection : Selection} (hrecv : selection.recv.PointsWithin G.depth) {f g : Node → LowerM α}
    (hf : ∀ s ν, Later G.base s → (G.after s).Made ν.id →
      s.overlay.selections.get? ν.id = some selection → (G.after s).AgreeBy R (f ν) (g ν)) :
    G.AgreeBy R
      (synthesizeNode type span >>= fun ν => recordSelection ν.id selection >>= fun _ => f ν)
      (synthesizeNode type span >>= fun ν => recordSelection ν.id selection >>= fun _ => g ν) := by
  -- The state after the node is made and its selection noted; only what is recorded of the new
  -- number differs.
  let step (s : FunctionState) : FunctionState :=
    s.newSyntheticId.2.modifyOverlay fun o =>
      { o with types := o.types.insert s.nextSynthetic type,
               selections := o.selections.insert s.nextSynthetic selection }
  have hrun (env : Env) (s : FunctionState) :
      (synthesizeNode type span >>= fun ν =>
        recordSelection ν.id selection >>= fun _ => pure ν).runIn env s =
        (.ok ⟨s.nextSynthetic, span⟩, step s) := rfl
  have hagrees (s : FunctionState) (id : NodeId) (hne : s.nextSynthetic ≠ id) :
      s.overlay.AgreesAt (step s).overlay id :=
    (Overlay.AgreesAt.insertType hne type).trans (.insertSelection hne selection)
  have hnoted := AgreeBy.bind_new (G := G) (R := R) (f := f) (g := g) hrun
    (fun {env s} hs => hs.of_new rfl (hagrees s) (fun found hfound => type?_of_insert rfl hfound ▸ h)
      fun _ found hfound => ?_)
    fun {env s} hs => hf (step s) _ (hs.later.trans (.of_new rfl (hagrees s)))
      ⟨Nat.lt_succ_self _, type, NodeTable.get?_insert_self _ _ _, h⟩
      (NodeTable.get?_insert_self _ _ _)
  · simpa only [bind_assoc, pure_bind] using hnoted
  -- The selection that is found on the new node is the one that was noted, so its receiver is as
  -- wanted.
  · have hnote : some selection = some found := by
      simpa [step, Env.selection?, FunctionState.modifyOverlay] using hfound
    exact Option.some.inj hnote ▸ hrecv

/-! ### Lists of computations -/

/-- The same for each member of a list. -/
theorem agreeBy_mapM {f g : β → LowerM α} {as : List β} (h : ∀ a ∈ as, G.AgreeBy Q (f a) (g a)) :
    G.AgreeBy (fun bs => ∀ b ∈ bs, Q b) (as.mapM f) (as.mapM g) := by
  induction as with
  | nil => exact .pure fun b hb => by cases hb
  | cons a as ih =>
    rw [List.mapM_cons, List.mapM_cons]
    refine (h a (by simp)).bind fun b hb => (ih fun a ha => h a (by simp [ha])).bind fun bs hbs => ?_
    exact .pure (List.forall_mem_cons.mpr ⟨hb, hbs⟩)

/-- Runs one after the other agree if each of them does. -/
theorem agree_mapM {f g : β → LowerM α} {as : List β} (h : ∀ a ∈ as, G.Agree (f a) (g a)) :
    G.Agree (as.mapM f) (as.mapM g) :=
  (agreeBy_mapM h).any

/-! ### Sequences -/

/-- Which texts are moved is decided by the texts. -/
theorem agree_moveToTemporaries (hint : String) (texts : List String) :
    G.Agree (moveToTemporaries hint texts) (moveToTemporaries hint texts) := by
  induction texts with
  | nil => exact .pure trivial
  | cons text texts ih =>
    unfold moveToTemporaries
    refine .ite (fun _ => ih.bind fun _ _ => .pure trivial) fun _ => ?_
    exact (AgreeBy.keepInTemporary hint text).bind fun _ _ => ih.bind fun _ _ => .pure trivial

theorem agree_move (hint : String) (parts : Parts) : G.Agree (parts.move hint) (parts.move hint) :=
  (agree_moveToTemporaries hint parts.open).bind fun _ _ => .pure trivial

theorem still_pendingCount : Still pendingCount :=
  fun _ _ => rfl

/-- The pending statements are cut and put back around the next part in the same way in both runs.
-/
theorem agree_add {l l' : LowerM String} (h : G.Agree l l') (hint : String) (parts : Parts) :
    G.Agree (parts.add hint l) (parts.add hint l') := by
  refine .look still_pendingCount fun mark => h.bind fun text _ => .look still_pendingCount fun now => ?_
  refine .ite (fun _ => .pure trivial) fun _ => (AgreeBy.splitPending mark).bind fun later _ => ?_
  exact (agree_move hint parts).bind fun _ _ => (AgreeBy.putBack later).bind fun _ _ => .pure trivial

/-- **Sequences.** -/
theorem agree_inSequence {f g : β → LowerM String} {as : List β}
    (h : ∀ a ∈ as, G.Agree (f a) (g a)) (hint : String) (parts : Parts) :
    G.Agree (inSequence hint parts (as.map f)) (inSequence hint parts (as.map g)) := by
  induction as generalizing parts with
  | nil => exact .pure trivial
  | cons a as ih =>
    refine (agree_add (h a (by simp)) hint parts).bind fun parts _ => ?_
    exact ih (fun a ha => h a (by simp [ha])) parts

end

end Ground

end GoLua
