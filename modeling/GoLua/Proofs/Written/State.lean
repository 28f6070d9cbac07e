import GoLua.Proofs.Written.Program
import GoLua.Proofs.Written.Scope

/-!
# Sound states

A state is *sound* if its pending statements are in scope and all that it knows about new nodes keeps
to the vocabulary. What may be read in a state (`Readable`) are the results of its pending statements,
and the parameters of accessors, which are declared where they are read.

Lowering only adds to a state (`Grows`), so what may be read once may be read from then on.
-/

namespace GoLua

open Lua

section

variable {V : Vocabulary} {env : Env} {s s₁ s' : FunctionState} {id : NodeId}

/-! ### What may be read -/

/-- A name with the hint of values that is no temporary: the parameter of an accessor. -/
def Hidden (s : FunctionState) (w : String) : Prop :=
  ∃ n < s.nextName, w = "_v" ++ toString n ∧ w ∉ s.temporaries

/-- What may be read in a state before its first pending statement. -/
def Given (V : Vocabulary) (s : FunctionState) (w : String) : Prop :=
  V.strict → Hidden s w

/-- What may be read in a state behind its pending statements. -/
def Readable (V : Vocabulary) (s : FunctionState) (w : String) : Prop :=
  V.strict → Hidden s w ∨ w ∈ resultsOf s.pending

theorem knowing_given {w : String} :
    knowing (Given V s) (resultsOf s.pending) w → Readable V s w :=
  fun h hstrict => h.imp_left (· hstrict)

theorem knowing_of_readable {w : String} (h : Readable V s w) :
    knowing (Given V s) (resultsOf s.pending) w := by
  by_cases hstrict : V.strict
  · exact (h hstrict).imp_left fun hidden _ => hidden
  · exact .inl fun h => absurd h hstrict

theorem readable_of_mem {w : String} (h : w ∈ resultsOf s.pending) : Readable V s w :=
  fun _ => .inr h

/-! ### Growing -/

/-- What lowering does to a state on the whole: it adds. -/
structure Grows (s s' : FunctionState) : Prop where
  pending : s.pending <+: s'.pending
  names : s.nextName ≤ s'.nextName
  temporaries : ∀ name ∈ s'.temporaries,
    name ∈ s.temporaries ∨ Minted s.nextName s'.nextName name ∧ isGenerated name.toList
  nodes : s.nextSynthetic ≤ s'.nextSynthetic
  uses : ∀ id < s.nextSynthetic, s'.overlay.uses.get? id = s.overlay.uses.get? id
  constants : s'.overlay.constants = s.overlay.constants

namespace Grows

theorem refl (s : FunctionState) : Grows s s :=
  ⟨List.prefix_rfl, Nat.le_refl _, fun _ h => .inl h, Nat.le_refl _, fun _ _ => rfl, rfl⟩

/-- A state that grows twice grows. -/
theorem trans (h : Grows s s₁) (h' : Grows s₁ s') : Grows s s' where
  pending := h.pending.trans h'.pending
  names := Nat.le_trans h.names h'.names
  temporaries name hname := by
    rcases h'.temporaries name hname with hname | hname
    · exact (h.temporaries name hname).imp_right fun hnew => ⟨hnew.1.mono_right h'.names, hnew.2⟩
    · exact .inr ⟨hname.1.mono h.names, hname.2⟩
  nodes := Nat.le_trans h.nodes h'.nodes
  uses id hid := (h'.uses id (Nat.lt_of_lt_of_le hid h.nodes)).trans (h.uses id hid)
  constants := h'.constants.trans h.constants

/-- A step that leaves names, nodes and statements alone. -/
theorem of_still (hpending : s'.pending = s.pending) (hnext : s'.nextName = s.nextName)
    (htemporaries : s'.temporaries = s.temporaries) (hnodes : s'.nextSynthetic = s.nextSynthetic)
    (huses : s'.overlay.uses = s.overlay.uses)
    (hconstants : s'.overlay.constants = s.overlay.constants) : Grows s s' where
  pending := hpending ▸ List.prefix_rfl
  names := Nat.le_of_eq hnext.symm
  temporaries name hname := .inl (htemporaries ▸ hname)
  nodes := Nat.le_of_eq hnodes.symm
  uses _ _ := by rw [huses]
  constants := hconstants

/-- A name has been minted that is no temporary. -/
theorem newLocal (s : FunctionState) (hint : String) : Grows s (s.newLocal hint).2 :=
  ⟨List.prefix_rfl, Nat.le_succ _, fun _ h => .inl h, Nat.le_refl _, fun _ _ => rfl, rfl⟩

theorem newTemporary (s : FunctionState) {hint : String} (h : isGeneratedHint hint) :
    Grows s (s.newTemporary hint).2 where
  pending := List.prefix_rfl
  names := Nat.le_succ _
  temporaries name hname := by
    rcases List.mem_append.mp hname with hname | hname
    · exact .inl hname
    · obtain rfl := List.mem_singleton.mp hname
      exact .inr ⟨.next (isHint_of_isGeneratedHint h) _, isGenerated_minted h _⟩
  nodes := Nat.le_refl _
  uses _ _ := rfl
  constants := rfl

theorem leave (s : FunctionState) (m : Made) : Grows s (s.leave m) :=
  ⟨List.prefix_append _ _, Nat.le_refl _, fun _ h => .inl h, Nat.le_refl _, fun _ _ => rfl, rfl⟩

/-- All temporaries have been minted before the next name. -/
theorem minted (h : Grows s s')
    (hs : ∀ name ∈ s.temporaries, Minted 0 s.nextName name ∧ isGenerated name.toList) :
    ∀ name ∈ s'.temporaries, Minted 0 s'.nextName name ∧ isGenerated name.toList := by
  intro name hname
  rcases h.temporaries name hname with hname | hname
  · exact (hs name hname).imp_left (·.mono_right h.names)
  · exact hname.imp_left (·.mono (Nat.zero_le _))

/-- What has been added to the pending statements is taken out again. -/
theorem cut (h : Grows s s') : Grows s { s' with pending := s.pending } :=
  ⟨List.prefix_rfl, h.names, h.temporaries, h.nodes, h.uses, h.constants⟩

/-- Statements are put behind the pending ones. -/
theorem putBack (s : FunctionState) (stmts : List Statement) : Grows s (s.putBack stmts) :=
  ⟨List.prefix_append _ _, Nat.le_refl _, fun _ h => .inl h, Nat.le_refl _, fun _ _ => rfl, rfl⟩

theorem hidden {w : String} (h : Grows s s') (hw : Hidden s w) : Hidden s' w := by
  obtain ⟨n, hn, rfl, hnone⟩ := hw
  refine ⟨n, Nat.lt_of_lt_of_le hn h.names, rfl, fun hmem => ?_⟩
  -- A temporary that is newer has another number.
  rcases h.temporaries _ hmem with hmem | ⟨⟨hint, m, hhint, hm, -, heq⟩, -⟩
  · exact hnone hmem
  · obtain ⟨-, rfl⟩ := minted_injective (by decide) hhint heq
    omega

theorem given {w : String} (h : Grows s s') (hw : Given V s w) : Given V s' w :=
  fun hstrict => h.hidden (hw hstrict)

theorem readable {w : String} (h : Grows s s') (hw : Readable V s w) : Readable V s' w := by
  intro hstrict
  obtain ⟨added, hadded⟩ := h.pending
  refine (hw hstrict).imp h.hidden fun hmem => ?_
  rw [← hadded, resultsOf_append]
  exact List.mem_append_left _ hmem

end Grows

/-! ### Soundness -/

/-- What lowering has noted down about nodes is about new ones: it binds them to variables and
functions, resolves them to fields, and makes no constants. -/
structure FunctionState.Closed (s : FunctionState) : Prop where
  synthetic : firstSyntheticId ≤ s.nextSynthetic
  /-- Nodes to come are not bound yet. -/
  free : ∀ id, s.nextSynthetic ≤ id → s.overlay.uses.get? id = none
  uses : ∀ {id obj}, s.overlay.uses.get? id = some obj → obj.kind ≠ .nil
  constants : ∀ id, s.overlay.constants.get? id = none
  selections : ∀ {id selection}, s.overlay.selections.get? id = some selection →
    firstSyntheticId ≤ id ∧ selection.kind = .fieldVal

/-- States that differ in nothing that is noted down. -/
theorem FunctionState.Closed.of_eq (h : s.Closed) (hnodes : s.nextSynthetic ≤ s'.nextSynthetic)
    (huses : s'.overlay.uses = s.overlay.uses)
    (hconstants : s'.overlay.constants = s.overlay.constants)
    (hselections : s'.overlay.selections = s.overlay.selections) : s'.Closed where
  synthetic := Nat.le_trans h.synthetic hnodes
  free id hid := huses ▸ h.free id (Nat.le_trans hnodes hid)
  uses := huses ▸ h.uses
  constants := hconstants ▸ h.constants
  selections := hselections ▸ h.selections

/-- A name that lowering makes for the box of an accessor. -/
structure IsBoxName (name : String) : Prop where
  named : IsNamed name
  plain : isTelling name.toList = false
  generated : isGenerated name.toList

/-- **Sound states.** The pending statements are in scope, the temporaries and the boxes of accessors
have generated names, which for the boxes are not those of values, and new nodes keep to the
vocabulary. -/
structure FunctionState.Sound (V : Vocabulary) (s : FunctionState) : Prop where
  pending : Scoped V (Given V s) s.pending
  minted : ∀ name ∈ s.temporaries, Minted 0 s.nextName name ∧ isGenerated name.toList
  boxes : ∀ box ∈ s.accessorBoxes, IsBoxName box.2
  type : ∀ {id t}, s.overlay.types.get? id = some t → t.Spelled V
  selection : ∀ {id selection}, s.overlay.selections.get? id = some selection → selection.Plain V
  /-- Where reads are not restricted, new nodes may be bound to any names. -/
  loose : ¬ V.strict → ∀ {id obj}, s.overlay.uses.get? id = some obj → obj.Sound V fun _ => True
  closed : V.strict → s.Closed

namespace FunctionState.Sound

theorem type? (h : s.Sound V) (henv : env.Plain V) {t : GoType} (ht : env.type? s id = some t) :
    t.Spelled V := by
  rcases Option.or_eq_some_iff.mp ht with ht | ⟨-, ht⟩
  · exact h.type ht
  · exact henv.facts.type ht

theorem selection? (h : s.Sound V) (henv : env.Plain V) {selection : Selection}
    (hselection : env.selection? s id = some selection) : selection.Plain V := by
  rcases Option.or_eq_some_iff.mp hselection with hselection | ⟨-, hselection⟩
  · exact h.selection hselection
  · exact henv.facts.selection hselection

/-- States that differ in nothing that soundness speaks of. -/
theorem of_eq (h : s.Sound V) (hgrows : Grows s s') (hpending : s'.pending = s.pending)
    (hboxes : s'.accessorBoxes = s.accessorBoxes) (htypes : s'.overlay.types = s.overlay.types)
    (hselections : s'.overlay.selections = s.overlay.selections)
    (huses : s'.overlay.uses = s.overlay.uses) : s'.Sound V where
  pending := hpending ▸ h.pending.mono _ fun _ => hgrows.given
  minted := hgrows.minted h.minted
  boxes := hboxes ▸ h.boxes
  type := htypes ▸ h.type
  selection := hselections ▸ h.selection
  loose := huses ▸ h.loose
  closed hstrict := (h.closed hstrict).of_eq hgrows.nodes huses hgrows.constants hselections

/-- A statement in scope has been left. -/
theorem leave (h : s.Sound V) {m : Made} (hm : m.statement.Scoped V (Readable V s)) :
    (s.leave m).Sound V where
  pending := scoped_append.mpr
    ⟨h.pending, scoped_singleton.mpr (hm.mono _ fun _ => knowing_of_readable)⟩
  minted := h.minted
  boxes := h.boxes
  type := h.type
  selection := h.selection
  loose := h.loose
  closed hstrict := (h.closed hstrict).of_eq (Nat.le_refl _) rfl rfl rfl

/-- The first of the pending statements are in scope by themselves. -/
theorem cut {before after : List Statement} (h : s.Sound V)
    (hpending : s.pending = before ++ after) :
    FunctionState.Sound V { s with pending := before } where
  pending := (scoped_append.mp (hpending ▸ h.pending)).1
  minted := h.minted
  boxes := h.boxes
  type := h.type
  selection := h.selection
  loose := h.loose
  closed hstrict := (h.closed hstrict).of_eq (Nat.le_refl _) rfl rfl rfl

/-- Statements in scope are put behind the pending ones. -/
theorem putBack (h : s.Sound V) {stmts : List Statement}
    (hstmts : Scoped V (knowing (Given V s) (resultsOf s.pending)) stmts) :
    (s.putBack stmts).Sound V where
  pending := scoped_append.mpr ⟨h.pending, hstmts⟩
  minted := h.minted
  boxes := h.boxes
  type := h.type
  selection := h.selection
  loose := h.loose
  closed hstrict := (h.closed hstrict).of_eq (Nat.le_refl _) rfl rfl rfl

end FunctionState.Sound

/-! ### Nodes -/

/-- A node whose name may be read: it is bound already, to an entity that may be named. -/
def Settled (V : Vocabulary) (s : FunctionState) (id : NodeId) : Prop :=
  V.strict → id < s.nextSynthetic ∧
    ∀ obj, s.overlay.uses.get? id = some obj → obj.Sound V (Readable V s)

/-- An expression whose node is settled and in order. -/
structure Expr.IsSettled (V : Vocabulary) (env : Env) (s : FunctionState) (e : Expr) : Prop where
  node : Settled V s e.id
  regular : V.strict → e.Regular V env

/-- An expression all nodes of which are settled. -/
abbrev Expr.Settles (V : Vocabulary) (env : Env) (s : FunctionState) (e : Expr) : Prop :=
  e.All (Expr.IsSettled V env s)

theorem Settled.mono (h : Settled V s id) (hgrows : Grows s s') : Settled V s' id := by
  intro hstrict
  obtain ⟨hid, huse⟩ := h hstrict
  refine ⟨Nat.lt_of_lt_of_le hid hgrows.nodes, fun obj hobj => ?_⟩
  rw [hgrows.uses id hid] at hobj
  exact (huse obj hobj).mono fun _ => hgrows.readable

theorem Expr.Settles.mono {e : Expr} (h : e.Settles V env s) (hgrows : Grows s s') :
    e.Settles V env s' :=
  Expr.All.mono (fun _ hc => ⟨hc.node.mono hgrows, hc.regular⟩) h

/-- On the right of a connective nothing else is asked. -/
theorem Expr.Settles.inRightOf {e : Expr} (h : e.Settles V env s) (id : NodeId) :
    e.Settles V (env.inRightOf id) s :=
  Expr.All.mono (fun _ hc => ⟨hc.node, hc.regular⟩) h

/-- The entity that a settled node is bound to may be named. -/
theorem FunctionState.Sound.object (hs : s.Sound V) (henv : env.Plain V) (h : Settled V s id)
    {obj : Object} (hobj : (env.binding s id).object? = some obj) :
    obj.Sound V (Readable V s) := by
  unfold Env.binding at hobj
  split at hobj
  · next use huse =>
    obtain rfl := Option.some.inj hobj
    by_cases hstrict : V.strict
    · exact (h hstrict).2 use huse
    · exact (hs.loose hstrict huse).mono fun w _ h => absurd h hstrict
  · have hplain := henv.facts.object hobj
    exact .of_name hplain.name hplain.package

/-- A way along fields starts at a value. -/
def StartsAtValue (V : Vocabulary) (env : Env) (base : Expr) (selection : Selection) : Prop :=
  V.strict → selection.isAlongFields → base.IsValue env.facts

/-- A method of an embedded field is called on a value. -/
theorem StartsAtValue.embedded {base : Expr} {selection : Selection}
    (h : StartsAtValue V env base selection) (hkind : selection.kind = .methodVal) :
    V.strict → 1 < selection.index.length → base.IsValue env.facts :=
  fun hstrict hlong => h hstrict (by rw [Selection.isAlongFields, hkind]; exact decide_eq_true hlong)

/-- A constant that is the key of a property is a name of the vocabulary. -/
def IsKey (V : Vocabulary) (env : Env) (key : Expr) : Prop :=
  V.strict → ∀ c, env.facts.constants.get? key.id = some c → c.Plain V

/-- A selector that is in order starts at a value, if it leads along fields. -/
theorem FunctionState.Sound.startsAtValue (h : s.Sound V) {n : Node} {base sel : Expr}
    (hregular : V.strict → (Expr.selector n base sel).Regular V env) {selection : Selection}
    (hselection : env.selection? s n.id = some selection) : StartsAtValue V env base selection := by
  intro hstrict halong
  rcases hregular hstrict with hvalue | ⟨hid, hfacts⟩
  · exact hvalue
  · rcases Option.or_eq_some_iff.mp hselection with hnew | ⟨-, hselection⟩
    · exact absurd ((h.closed hstrict).selections hnew).1 (Nat.not_le_of_lt hid)
    · rw [hfacts selection hselection] at halong
      cases halong

/-- The first argument of a call that is in order is a key, if the method that is called takes one. -/
theorem FunctionState.Sound.isKey (h : s.Sound V) {n m : Node} {func base sel : Expr}
    {args : List Expr} {ellipsis : Bool}
    (hregular : V.strict → (Expr.call n func args ellipsis).Regular V env)
    (hfunc : func.unparen = .selector m base sel) {selection : Selection}
    (hselection : env.selection? s m.id = some selection)
    (htakes : selection.takesKey env.config) {key : Expr} (hkey : args[0]? = some key) :
    IsKey V env key := by
  intro hstrict c hc
  rcases Option.or_eq_some_iff.mp hselection with hnew | ⟨-, hselection⟩
  · -- New nodes are resolved to fields, which take no keys.
    have hkind := ((h.closed hstrict).selections hnew).2
    simp [Selection.takesKey, hkind] at htakes
  · exact hregular hstrict m base sel selection hfunc hselection htakes key
      (by rw [List.head?_eq_getElem?, hkey]; rfl) c hc

/-- No new node is bound to `nil`. -/
theorem FunctionState.Closed.kind_ne_nil (h : s.Closed)
    (hfacts : ∀ obj, (env.facts.bindingOf id).object? = some obj → obj.kind ≠ .nil) {obj : Object}
    (hobj : (env.binding s id).object? = some obj) : obj.kind ≠ .nil := by
  unfold Env.binding at hobj
  split at hobj
  · next use huse =>
    obtain rfl := Option.some.inj hobj
    exact h.uses huse
  · exact hfacts obj hobj

end

end GoLua
