import GoLua.Proofs.ResumeSteps

/-!
# What is known about nodes

Lowering desugars: it makes nodes of its own and notes down what it knows about them. The overlay that
holds these notes is asked before the facts of the program, so a single note about another node would
give that node another type, or another value, in all that is lowered later.

No run writes such a note (`Request.annotates_new_nodes`). Between two states of a run an overlay
differs only at the numbers that were handed out in between (`Annotates`), because a node gets its notes
as soon as it is made. This is a law of runs like any other (`annotating`).
-/

namespace GoLua

/-! ### Overlays -/

/-- Two overlays say the same of a node. -/
structure Overlay.AgreesAt (o o' : Overlay) (id : NodeId) : Prop where
  types : o'.types.get? id = o.types.get? id
  constants : o'.constants.get? id = o.constants.get? id
  uses : o'.uses.get? id = o.uses.get? id
  selections : o'.selections.get? id = o.selections.get? id
  suspending : o'.suspending.contains id = o.suspending.contains id

namespace Overlay.AgreesAt

variable {o o₁ o' : Overlay} {id : NodeId}

theorem refl (o : Overlay) (id : NodeId) : o.AgreesAt o id :=
  ⟨rfl, rfl, rfl, rfl, rfl⟩

/-- Overlays that agree with the next one agree with the last. -/
theorem trans (h : o.AgreesAt o₁ id) (h' : o₁.AgreesAt o' id) : o.AgreesAt o' id where
  types := h'.types.trans h.types
  constants := h'.constants.trans h.constants
  uses := h'.uses.trans h.uses
  selections := h'.selections.trans h.selections
  suspending := h'.suspending.trans h.suspending

/-! A note about another node. -/

theorem insertType {x : NodeId} (h : x ≠ id) (type : GoType) :
    o.AgreesAt { o with types := o.types.insert x type } id :=
  ⟨NodeTable.get?_insert_of_ne _ h _, rfl, rfl, rfl, rfl⟩

theorem insertUse {x : NodeId} (h : x ≠ id) (obj : Object) :
    o.AgreesAt { o with uses := o.uses.insert x obj } id :=
  ⟨rfl, rfl, NodeTable.get?_insert_of_ne _ h _, rfl, rfl⟩

theorem insertSelection {x : NodeId} (h : x ≠ id) (selection : Selection) :
    o.AgreesAt { o with selections := o.selections.insert x selection } id :=
  ⟨rfl, rfl, rfl, NodeTable.get?_insert_of_ne _ h _, rfl⟩

theorem mark {x : NodeId} (h : x ≠ id) :
    o.AgreesAt { o with suspending := o.suspending.mark x } id := by
  refine ⟨rfl, rfl, rfl, rfl, ?_⟩
  rw [Marks.contains_mark, beq_false_of_ne h, Bool.false_or]

/-! What is looked up of a node of which two overlays say the same. -/

variable {s s' : FunctionState}

theorem type? (h : s.overlay.AgreesAt s'.overlay id) (env : Env) : env.type? s' id = env.type? s id := by
  rw [Env.type?, Env.type?, h.types]

theorem constant? (h : s.overlay.AgreesAt s'.overlay id) (env : Env) :
    env.constant? s' id = env.constant? s id := by
  rw [Env.constant?, Env.constant?, h.constants]

theorem binding (h : s.overlay.AgreesAt s'.overlay id) (env : Env) :
    env.binding s' id = env.binding s id := by
  rw [Env.binding, Env.binding, h.uses]

theorem selection? (h : s.overlay.AgreesAt s'.overlay id) (env : Env) :
    env.selection? s' id = env.selection? s id := by
  rw [Env.selection?, Env.selection?, h.selections]

theorem suspends (h : s.overlay.AgreesAt s'.overlay id) (env : Env) :
    env.suspends s' id = env.suspends s id := by
  rw [Env.suspends, Env.suspends, h.suspending]

end Overlay.AgreesAt

/-! ### Runs -/

/-- Between two states, notes have been taken of no other nodes than new ones, which have got their
numbers by now. -/
structure Annotates (p : Prices) (s s' : FunctionState) : Prop where
  nodes : s.nextSynthetic ≤ s'.nextSynthetic
  agrees : ∀ id, (p.fresh id → s'.nextSynthetic ≤ id) → s.overlay.AgreesAt s'.overlay id

namespace Annotates

variable {p : Prices} {s s₁ s' : FunctionState}

/-- Annotations of two runs are annotations of both. -/
theorem trans (h : Annotates p s s₁) (h' : Annotates p s₁ s') : Annotates p s s' where
  nodes := Nat.le_trans h.nodes h'.nodes
  agrees id hid := (h.agrees id fun hfresh => Nat.le_trans h'.nodes (hid hfresh)).trans (h'.agrees id hid)

/-- A step that takes no notes. -/
theorem of_still (hnodes : s'.nextSynthetic = s.nextSynthetic) (hoverlay : s'.overlay = s.overlay) :
    Annotates p s s' where
  nodes := Nat.le_of_eq hnodes.symm
  agrees id _ := hoverlay ▸ .refl s.overlay id

/-- A note about a new node. -/
theorem of_note {x : NodeId} (hfresh : p.fresh x) (hx : x < s.nextSynthetic)
    (hnodes : s'.nextSynthetic = s.nextSynthetic)
    (h : ∀ id, x ≠ id → s.overlay.AgreesAt s'.overlay id) : Annotates p s s' where
  nodes := Nat.le_of_eq hnodes.symm
  agrees id hid := by
    refine h id fun heq => ?_
    -- The number of the node has been handed out.
    have hle : s'.nextSynthetic ≤ x := heq ▸ hid (heq ▸ hfresh)
    exact Nat.not_lt_of_le hle (hnodes ▸ hx)

end Annotates

/-- **Annotating.** Runs take notes of new nodes only. -/
def annotating (p : Prices) : RunLaw p where
  rel _ _ _ s s' := Annotates p s s'
  stay := .of_still rfl rfl
  spend h _ := h
  trans h h' := h.trans h'
  newLocal _ := .of_still rfl rfl
  accessorBox {_ s} key _ := by
    unfold FunctionState.accessorBox
    split
    · exact .of_still rfl rfl
    · exact .of_still rfl rfl
  reportError _ _ := .of_still rfl rfl
  newNode {_ s} type hfresh := by
    have hnumber : Annotates p s s.newSyntheticId.2 := ⟨Nat.le_succ _, fun id _ => .refl _ id⟩
    exact hnumber.trans
      (.of_note hfresh (Nat.lt_succ_self _) rfl fun _ hne => .insertType hne type)
  use x obj hfresh hx := .of_note hfresh hx rfl fun _ hne => .insertUse hne obj
  select x selection hfresh hx := .of_note hfresh hx rfl fun _ hne => .insertSelection hne selection
  mark x hfresh hx := .of_note hfresh hx rfl fun _ hne => .mark hne
  visit _ := .of_still rfl rfl
  request _ _ := .of_still rfl rfl
  keep _ _ _ := .of_still rfl rfl
  assign _ _ _ _ := .of_still rfl rfl
  callStatement _ _ _ := .of_still rfl rfl
  callValue _ _ _ := .of_still rfl rfl
  native _ h h' _ := h.trans h'
  guard _ _ _ _ h h' := (h.trans h').trans (.of_still rfl rfl)
  stuck _ h := h
  insert {_ _ s s₁ _} h h' := by
    have hcut : Annotates p s₁ (s₁.splitAt s.pending.length).2 := .of_still rfl rfl
    exact (h.trans hcut).trans (h'.trans (.of_still rfl rfl))

/-- **Only new nodes are annotated.** Whatever is asked for, and whether it succeeds or not: what is known
about a node whose number was handed out before is the same after the run, and each node about which
something else is known got its number in the run. -/
theorem Request.annotates_new_nodes (request : Request) (env : Env) (s : FunctionState) :
    let s' := (request.run.runIn env s).2
    (∀ id < s.nextSynthetic, env.type? s' id = env.type? s id ∧
      env.constant? s' id = env.constant? s id ∧ env.binding s' id = env.binding s id ∧
      env.selection? s' id = env.selection? s id ∧ env.suspends s' id = env.suspends s id) ∧
    (∀ id, ¬ s.overlay.AgreesAt s'.overlay id → s.nextSynthetic ≤ id ∧ id < s'.nextSynthetic) ∧
    (firstSyntheticId ≤ s.nextSynthetic →
      ∀ id, ¬ s.overlay.AgreesAt s'.overlay id → isSyntheticId id) := by
  intro s'
  -- The new nodes are those that have no number yet in the first state.
  obtain ⟨w, hbuilt⟩ := request.built (freePrices env s)
  have hkept : Annotates (freePrices env s) s s' :=
    (RunLaw.holds_of_built ((annotating _).holds_within request.depth) hbuilt env s
      (ready_freePrices env s) (request.run.runIn env s).1 s' rfl).rel
  have hnew (id : NodeId) (h : ¬ s.overlay.AgreesAt s'.overlay id) :
      s.nextSynthetic ≤ id ∧ id < s'.nextSynthetic := by
    refine ⟨Nat.le_of_not_lt fun hlt => h (hkept.agrees id fun hle => ?_),
      Nat.lt_of_not_le fun hle => h (hkept.agrees id fun _ => hle)⟩
    exact absurd hlt (Nat.not_lt_of_le hle)
  refine ⟨fun id hid => ?_, hnew, fun hfirst id h => decide_eq_true (Nat.le_trans hfirst (hnew id h).1)⟩
  have hagrees := hkept.agrees id fun hle => absurd hid (Nat.not_lt_of_le hle)
  exact ⟨hagrees.type? env, hagrees.constant? env, hagrees.binding env, hagrees.selection? env,
    hagrees.suspends env⟩

end GoLua
