import GoLua.Proofs.Built.Expr
import GoLua.Proofs.Run.Pending

/-!
# Laws of runs

A *law* relates the states before and after a run, and is known of the steps that lowering takes: of
a name that is minted, a statement that is left, a right operand that becomes the branch of a guard.
`RunLaw.lowering` says that a law of the steps is a law of all runs of lowering, failing ones
included.

All laws rest on what lowering never takes back (`Steady`): the numbers of names and nodes only grow,
marks stay, and nothing becomes constant. So what is known of a state at the start of a run, which
nodes are constants and which numbers are still free (`Ready`), is known throughout.
-/

namespace GoLua

/-! ### What lowering never takes back -/

/-- What one state has kept of another. -/
structure Steady (p : Prices) (s s' : FunctionState) : Prop where
  constants : s'.overlay.constants = s.overlay.constants
  names : s.nextName ≤ s'.nextName
  nodes : s.nextSynthetic ≤ s'.nextSynthetic
  marked : ∀ id, s.overlay.suspending.contains id → s'.overlay.suspending.contains id
  unmarked : ∀ id, ¬ p.fresh id →
    s'.overlay.suspending.contains id = s.overlay.suspending.contains id

/-- The prices fit a state: constants are known as such, and the nodes to come are new. -/
structure Ready (p : Prices) (env : Env) (s : FunctionState) : Prop where
  constant : ∀ id, (env.constant? s id).isSome = p.constant id
  fresh : ∀ id, s.nextSynthetic ≤ id → p.fresh id

section

variable {p : Prices} {env : Env} {s s₁ s' : FunctionState}

namespace Steady

theorem refl (s : FunctionState) : Steady p s s :=
  ⟨rfl, Nat.le_refl _, Nat.le_refl _, fun _ h => h, fun _ _ => rfl⟩

/-- Steadiness composes. -/
theorem trans (h : Steady p s s₁) (h' : Steady p s₁ s') : Steady p s s' where
  constants := h'.constants.trans h.constants
  names := Nat.le_trans h.names h'.names
  nodes := Nat.le_trans h.nodes h'.nodes
  marked id hid := h'.marked id (h.marked id hid)
  unmarked id hid := (h'.unmarked id hid).trans (h.unmarked id hid)

/-- Two states with the same numbers and the same overlay. -/
theorem of_eq (hnames : s.nextName ≤ s'.nextName) (hnodes : s'.nextSynthetic = s.nextSynthetic)
    (hoverlay : s'.overlay = s.overlay) : Steady p s s' where
  constants := by rw [hoverlay]
  names := hnames
  nodes := Nat.le_of_eq hnodes.symm
  marked id hid := by rwa [hoverlay]
  unmarked id _ := by rw [hoverlay]

end Steady

/-- What is ready stays ready in a state that is reached steadily. -/
theorem Ready.steady (h : Ready p env s) (hs : Steady p s s') : Ready p env s' where
  constant id := by
    rw [← h.constant id, Env.constant?, Env.constant?, hs.constants]
  fresh id hid := h.fresh id (Nat.le_trans hs.nodes hid)

/-- A right operand is lowered where its node is as ready as before. -/
theorem Ready.inRightOf (h : Ready p env s) (id : NodeId) : Ready p (env.inRightOf id) s :=
  ⟨h.constant, h.fresh⟩

end

/-- Prices for runs from a state, where nothing costs anything: all nodes are new that have no number
yet. -/
def freePrices (env : Env) (s : FunctionState) : Prices where
  constant id := (env.constant? s id).isSome
  visit _ := 0
  suspend _ := 0
  receive := 0
  body _ := 0
  fresh id := s.nextSynthetic ≤ id
  visit_fresh _ _ := rfl
  suspend_fresh _ _ := Nat.le_refl 0

theorem ready_freePrices (env : Env) (s : FunctionState) : Ready (freePrices env s) env s :=
  ⟨fun _ => rfl, fun _ h => h⟩

/-! ### Laws -/

/-- **A law of runs.** `rel succeeded env w s s'` says how the states before and after a run are
related that may spend `w`. It is reflexive and transitive, and every step that lowering takes keeps
it. -/
structure RunLaw (p : Prices) where
  rel : Bool → Env → Nat → FunctionState → FunctionState → Prop
  stay : ∀ {b env s}, rel b env 0 s s
  spend : ∀ {b env v w s s'}, rel b env v s s' → v ≤ w → rel b env w s s'
  trans : ∀ {b env v w s s₁ s'}, rel true env v s s₁ → rel b env w s₁ s' → rel b env (v + w) s s'
  -- Names, nodes and diagnostics
  newLocal : ∀ {env s} hint, rel true env 0 s (FunctionState.newLocal s hint).2
  accessorBox : ∀ {env s} key, isHint (key ++ "_ptr") →
    rel true env 0 s (FunctionState.accessorBox s key).2
  reportError : ∀ {env s} message span,
    rel true env 0 s (FunctionState.reportError s message span)
  newNode : ∀ {env s} type, p.fresh s.nextSynthetic → rel true env 0 s
    (s.newSyntheticId.2.modifyOverlay fun o => { o with types := o.types.insert s.nextSynthetic type })
  use : ∀ {env s} id obj, p.fresh id → id < s.nextSynthetic → rel true env 0 s
    (s.modifyOverlay fun o => { o with uses := o.uses.insert id obj })
  select : ∀ {env s} id selection, p.fresh id → id < s.nextSynthetic → rel true env 0 s
    (s.modifyOverlay fun o => { o with selections := o.selections.insert id selection })
  mark : ∀ {env s} id, p.fresh id → id < s.nextSynthetic → rel true env 0 s
    (s.modifyOverlay fun o => { o with suspending := o.suspending.mark id })
  -- What is paid for
  visit : ∀ {env s} id, rel true env (p.visit id) s { s with lowered := id :: s.lowered }
  request : ∀ {b env s} body sig,
    rel b env (p.body body) s { s with bodyRequests := (body, sig) :: s.bodyRequests }
  -- Statements
  keep : ∀ {env s} hint value, isHint hint → rel true env 0 s
    ((s.newTemporary hint).2.leave ⟨env.inside, .assign (s.newTemporary hint).1 value, none, none⟩)
  assign : ∀ {env s} write target value, IsPropertyOf (HostWrite.object write) target →
    rel true env 0 s (s.leave ⟨env.inside, .assign target value, none, some write⟩)
  callStatement : ∀ {env s} id call, env.suspends s id → rel true env (p.suspend id) s
    (s.newStep.2.leave ⟨env.inside, .callAssign none call s.newStep.1, none, none⟩)
  callValue : ∀ {env s} id call, env.suspends s id → rel true env (p.suspend id) s
    ((s.newStep.2.newTemporary "_r").2.leave
      ⟨env.inside, .callAssign (some (s.newStep.2.newTemporary "_r").1) call s.newStep.1, none,
        none⟩)
  -- Connectives
  native : ∀ {env v w s s₁ s₂} id, rel true env v s s₁ → rel true (env.inRightOf id) w s₁ s₂ →
    s₂.pending.drop s₁.pending.length = [] → rel true env (v + w) s s₂
  guard : ∀ {env v w s s₁ s₂} id op condition value, rel true env v s s₁ →
    rel true (env.inRightOf id) w s₁ s₂ →
    rel true env (v + w) s (s₂.guardRight env id op s₁.pending.length condition value).2
  stuck : ∀ {env w s s'} id, rel false (env.inRightOf id) w s s' → rel false env w s s'
  -- Sequences
  insert : ∀ {env w s s₁ s₂}, rel true env w s s₁ →
    rel true env 0 (s₁.splitAt s.pending.length).2 s₂ →
    rel true env w s (s₂.putBack (s₁.splitAt s.pending.length).1)

namespace RunLaw

variable {p : Prices} (law : RunLaw p) {α β : Type}

/-- A run keeps a law. -/
structure Kept (env : Env) (w : Nat) (s : FunctionState) (r : Except CompileError α)
    (s' : FunctionState) (Q : α → Prop) : Prop where
  steady : Steady p s s'
  rel : law.rel r.isOk env w s s'
  result : ∀ a, r = .ok a → Q a

/-- All runs of a computation keep a law. -/
def Holds (w : Nat) (m : LowerM α) (Q : α → Prop) : Prop :=
  ∀ env s, Ready p env s → ∀ r s', m.runIn env s = (r, s') → law.Kept env w s r s' Q

variable {law} {m : LowerM α} {f : α → LowerM β} {v w : Nat} {Q : α → Prop} {R : β → Prop}

/-! ### Composing -/

/-- A law that holds at a price holds at a higher one, and for less of the result. -/
theorem Holds.weaken (h : law.Holds v m Q) (hw : v ≤ w) {Q' : α → Prop} (hQ : ∀ a, Q a → Q' a) :
    law.Holds w m Q' := by
  intro env s hs r s' hrun
  have hk := h env s hs r s' hrun
  exact ⟨hk.steady, law.spend hk.rel hw, fun a ha => hQ a (hk.result a ha)⟩

/-- In sequence the prices add up. -/
theorem Holds.bind (h : law.Holds v m Q) (hf : ∀ a, Q a → law.Holds w (f a) R) :
    law.Holds (v + w) (m >>= f) R := by
  intro env s hs r s' hrun
  rcases hm : m.runIn env s with ⟨err | a, s₁⟩
  · rw [LowerM.runIn_bind_error hm] at hrun
    obtain ⟨rfl, rfl⟩ := Prod.mk.inj hrun
    have hk := h env s hs _ _ hm
    exact ⟨hk.steady, law.spend hk.rel (Nat.le_add_right _ _), fun a ha => by cases ha⟩
  · rw [LowerM.runIn_bind_ok hm] at hrun
    have hk := h env s hs _ _ hm
    have hk' := hf a (hk.result a rfl) env s₁ (hs.steady hk.steady) r s' hrun
    exact ⟨hk.steady.trans hk'.steady, law.trans hk.rel hk'.rel, hk'.result⟩

/-- A computation that costs nothing comes first. -/
theorem Holds.free (h : law.Holds 0 m Q) (hf : ∀ a, Q a → law.Holds w (f a) R) :
    law.Holds w (m >>= f) R :=
  (h.bind hf).weaken (Nat.le_of_eq (Nat.zero_add w)) fun _ h => h

/-- A computation that changes nothing. -/
theorem holds_of_still (hstate : ∀ env s, (m.runIn env s).2 = s)
    (hQ : ∀ {env s}, Ready p env s → ∀ a, (m.runIn env s).1 = .ok a → Q a) : law.Holds 0 m Q := by
  intro env s hs r s' hrun
  obtain rfl : s = s' := by rw [← hstate env s, hrun]
  exact ⟨.refl s, law.stay, fun a ha => hQ hs a (by rw [hrun, ha])⟩

/-- A computation that takes one step and succeeds. -/
theorem holds_of_step {a : Env → FunctionState → α} {step : Env → FunctionState → FunctionState}
    (hrun : ∀ env s, m.runIn env s = (.ok (a env s), step env s))
    (hsteady : ∀ env s, Ready p env s → Steady p s (step env s))
    (hrel : ∀ env s, Ready p env s → law.rel true env w s (step env s)) :
    law.Holds w m fun _ => True := by
  intro env s hs r s' h
  obtain ⟨rfl, rfl⟩ := Prod.mk.inj (h.symm.trans (hrun env s))
  exact ⟨hsteady env s hs, hrel env s hs, fun _ _ => trivial⟩

/-! ### Steps -/

open Lower

/-- A result that is at hand costs nothing. -/
theorem holds_pure {a : α} (h : Q a) : law.Holds 0 (pure a) Q :=
  holds_of_still (fun _ _ => rfl) fun _ _ hb => by cases hb; exact h

theorem holds_newLocal (hint : String) : law.Holds 0 (Lower.newLocal hint) fun _ => True :=
  holds_of_step (runIn_newLocal · · hint) (fun _ _ _ => .of_eq (Nat.le_succ _) rfl rfl)
    fun _ _ _ => law.newLocal hint

/-- A box is kept, or its name is minted: neither is a step the law prices. -/
theorem holds_accessorBox (key : String) (h : isHint (key ++ "_ptr")) :
    law.Holds 0 (Lower.accessorBox key) fun _ => True := by
  refine holds_of_step (runIn_accessorBox · · key) (fun env s _ => ?_)
    fun _ _ _ => law.accessorBox key h
  unfold FunctionState.accessorBox
  split
  · exact .refl s
  · exact .of_eq (Nat.le_succ _) rfl rfl

/-- A message is no step either. -/
theorem holds_reportError (message : String) (span : Span) :
    law.Holds 0 (Lower.reportError message span) fun _ => True :=
  holds_of_step (runIn_reportError · · message span)
    (fun _ _ _ => .of_eq (Nat.le_refl _) rfl rfl) fun _ _ _ => law.reportError message span

/-- A value in a temporary leaves one statement. -/
theorem holds_keepInTemporary (hint value : String) (h : isHint hint) :
    law.Holds 0 (keepInTemporary hint value) fun _ => True :=
  holds_of_step (runIn_keepInTemporary · · hint value)
    (fun _ _ _ => .of_eq (Nat.le_succ _) rfl rfl) fun _ _ _ => law.keep hint value h

/-- A write to a host object leaves the assignment, with the record of what it writes. -/
theorem runIn_assigned (env : Env) (s : FunctionState) (write : HostWrite) (target value : String) :
    (assigned write target value).runIn env s =
      (.ok (.atom ""), s.leave ⟨env.inside, .assign target value, none, some write⟩) := rfl

/-- An assignment to a property is one step of the law. -/
theorem holds_assigned (write : HostWrite) (target value : String)
    (h : IsPropertyOf write.object target) :
    law.Holds 0 (assigned write target value) fun _ => True :=
  holds_of_step (runIn_assigned · · write target value)
    (fun _ _ _ => .of_eq (Nat.le_refl _) rfl rfl) fun _ _ _ => law.assign write target value h

/-- Recording that a tree was lowered costs the price of its form. -/
theorem holds_recordLowered (e : Expr) :
    law.Holds (p.form e) (recordLowered e) fun _ => True := by
  refine holds_of_step (runIn_recordLowered · · e) (fun env s _ => ?_) fun env s _ => ?_
  · split
    · exact .refl s
    · exact .of_eq (Nat.le_refl _) rfl rfl
  · unfold Prices.form
    split
    · exact law.stay
    · exact law.visit e.id

/-- A body is requested at the price of its number. -/
theorem holds_requestBody (source : BodySource) (body : Nat) (sig : Signature) :
    law.Holds (p.body body) (requestBody source body sig) fun _ => True := by
  intro env s _ r s' hrun
  rw [runIn_requestBody] at hrun
  obtain ⟨-, rfl⟩ := Prod.mk.inj hrun
  exact ⟨.of_eq (Nat.le_refl _) rfl rfl, law.request body sig, fun _ _ => trivial⟩

/-- A call that does not suspend is written where it stands; else its statement is paid for. -/
theorem runIn_placeCall (env : Env) (s : FunctionState) (e : Expr) (sig : Signature)
    (call : String) :
    (placeCall e sig call).runIn env s =
      if env.suspends s e.id then
        if sig.results.isEmpty then
          (.ok (.atom ""),
            s.newStep.2.leave ⟨env.inside, .callAssign none call s.newStep.1, none, none⟩)
        else
          (.ok (.atom (s.newStep.2.newTemporary "_r").1), (s.newStep.2.newTemporary "_r").2.leave
            ⟨env.inside, .callAssign (some (s.newStep.2.newTemporary "_r").1) call s.newStep.1,
              none, none⟩)
      else (.ok (.atom call), s) := by
  unfold placeCall
  rw [LowerM.runIn_bind_ok (runIn_isSuspending env s e)]
  -- A call that suspends takes a step, and a temporary unless it has no result; any other call
  -- stays in the text.
  split
  · rw [LowerM.runIn_bind_ok (runIn_newStep env s)]
    split <;> rfl
  · rfl

/-- A call that suspends costs the price of its node. -/
theorem holds_placeCall (e : Expr) (sig : Signature) (call : String) :
    law.Holds (p.suspend e.id) (placeCall e sig call) fun _ => True := by
  intro env s hs r s' hrun
  rw [runIn_placeCall] at hrun
  split at hrun
  · next hsuspends =>
    split at hrun <;> obtain ⟨rfl, rfl⟩ := Prod.mk.inj hrun
    · exact ⟨.of_eq (Nat.le_refl _) rfl rfl, law.callStatement e.id call hsuspends,
        fun _ _ => trivial⟩
    · exact ⟨.of_eq (Nat.le_succ _) rfl rfl, law.callValue e.id call hsuspends, fun _ _ => trivial⟩
  · obtain ⟨rfl, rfl⟩ := Prod.mk.inj hrun
    exact ⟨.refl s, law.spend law.stay (Nat.zero_le _), fun _ _ => trivial⟩

/-- A new node comes with a number that is still free. -/
theorem holds_synthesizeNode (type : GoType) (span : Span) :
    law.Holds 0 (synthesizeNode type span) fun node => p.fresh node.id := by
  intro env s hs r s' hrun
  rw [runIn_synthesizeNode] at hrun
  obtain ⟨rfl, rfl⟩ := Prod.mk.inj hrun
  -- Its number was the next one, and the prices take all of those for new.
  have hfresh : p.fresh s.nextSynthetic := hs.fresh _ (Nat.le_refl _)
  refine ⟨⟨rfl, Nat.le_refl _, Nat.le_succ _, fun _ h => h, fun _ _ => rfl⟩,
    law.newNode type hfresh, fun node hnode => ?_⟩
  obtain rfl := Except.ok.inj hnode
  exact hfresh

/-- Something is noted down about a node that has just been made. -/
theorem holds_noted {note : NodeId → LowerM Unit} {step : NodeId → FunctionState → FunctionState}
    (hrun : ∀ id env s, (note id).runIn env s = (.ok (), step id s))
    (hsteady : ∀ id s, p.fresh id → Steady p s (step id s))
    (hrel : ∀ {env s} id, p.fresh id → id < s.nextSynthetic → law.rel true env 0 s (step id s))
    (type : GoType) (span : Span) :
    law.Holds 0 (synthesizeNode type span >>= fun node => note node.id >>= fun _ => pure node)
      fun node => p.fresh node.id := by
  intro env s hs r s' h
  -- The number of the node is below the next one from here on.
  have hnode : law.Kept env 0 s _ _ fun node : Node => p.fresh node.id :=
    holds_synthesizeNode type span env s hs _ _ (runIn_synthesizeNode env s type span)
  have hfresh : p.fresh s.nextSynthetic := hs.fresh _ (Nat.le_refl _)
  rw [LowerM.runIn_bind_ok (runIn_synthesizeNode env s type span),
    LowerM.runIn_bind_ok (hrun _ env _)] at h
  obtain ⟨rfl, rfl⟩ := Prod.mk.inj h
  refine ⟨hnode.steady.trans (hsteady _ _ hfresh),
    law.trans hnode.rel (hrel s.nextSynthetic hfresh (Nat.lt_succ_self _)), fun node h => ?_⟩
  obtain rfl := Except.ok.inj h
  exact hfresh

/-- A use that is synthesized is a name at a fresh node. -/
theorem holds_synthesizeUse (name : String) (obj : Object) (type : GoType) (span : Span) :
    law.Holds 0 (synthesizeUse name obj type span)
      fun e => ∃ node : Node, p.fresh node.id ∧ e = .ident node name := by
  have hrun (id : NodeId) (env : Env) (s : FunctionState) : (modify fun s => s.modifyOverlay fun o =>
      { o with uses := o.uses.insert id obj } : LowerM Unit).runIn env s =
        (.ok (), s.modifyOverlay fun o => { o with uses := o.uses.insert id obj }) := rfl
  have hnoted := holds_noted hrun
    (fun _ _ _ => ⟨rfl, Nat.le_refl _, Nat.le_refl _, fun _ h => h, fun _ _ => rfl⟩)
    (fun id => law.use id obj) type span
  have hnamed (node : Node) (hnode : p.fresh node.id) :
      law.Holds 0 (pure (Expr.ident node name))
        fun e => ∃ node : Node, p.fresh node.id ∧ e = .ident node name :=
    holds_pure ⟨node, hnode, rfl⟩
  simpa only [synthesizeUse, bind_assoc, pure_bind] using hnoted.free hnamed

/-- The selection of a fresh node is none of the input, so recording it changes no price. -/
theorem holds_synthesizeSelector (type : GoType) (span : Span) (selection : Selection)
    {k : Node → LowerM α} (hk : ∀ node, p.fresh node.id → law.Holds w (k node) Q) :
    law.Holds w (synthesizeNode type span >>= fun node =>
      recordSelection node.id selection >>= fun _ => k node) Q := by
  have hnoted := holds_noted (fun id env s => runIn_recordSelection env s id selection)
    (fun _ _ _ => ⟨rfl, Nat.le_refl _, Nat.le_refl _, fun _ h => h, fun _ _ => rfl⟩)
    (fun id => law.select id selection) type span
  simpa only [bind_assoc, pure_bind] using hnoted.free hk

/-- Nor is the mark of a fresh call. -/
theorem holds_synthesizeSuspending (type : GoType) (span : Span) {k : Node → LowerM α}
    (hk : ∀ node, p.fresh node.id → law.Holds w (k node) Q) :
    law.Holds w (synthesizeNode type span >>= fun node =>
      markSuspending node.id >>= fun _ => k node) Q := by
  have hsteady (id : NodeId) (s : FunctionState) (hfresh : p.fresh id) :
      Steady p s (s.modifyOverlay fun o => { o with suspending := o.suspending.mark id }) := by
    refine ⟨rfl, Nat.le_refl _, Nat.le_refl _, fun x hx => ?_, fun x hx => ?_⟩
    · change (s.overlay.suspending.mark id).contains x = true
      rw [Marks.contains_mark, hx, Bool.or_true]
    · change (s.overlay.suspending.mark id).contains x = _
      have hne : id ≠ x := fun heq => hx (heq ▸ hfresh)
      simp [Marks.contains_mark, hne]
  have hnoted := holds_noted (fun id env s => runIn_markSuspending env s id) hsteady
    law.mark type span
  simpa only [bind_assoc, pure_bind] using hnoted.free hk

theorem holds_source : law.Holds 0 bodySource fun _ => True :=
  holds_of_still (fun _ _ => rfl) fun _ _ _ => trivial

/-- The body of a function literal is asked for, where there is a source of bodies. -/
theorem holds_bodySource {body : Nat} {sig : Signature} {k : Option BodySource → LowerM α}
    {f : FunctionText → LowerM α} (hwithout : law.Holds (p.body body + w) (k none) Q)
    (hasked : ∀ source, k (some source) = requestBody source body sig >>= f)
    (hf : ∀ function, law.Holds w (f function) Q) :
    law.Holds (p.body body + w) (bodySource >>= k) Q := by
  refine holds_source.free fun source? _ => ?_
  cases source? with
  | none => exact hwithout
  | some source =>
    rw [hasked]
    exact (holds_requestBody source body sig).bind fun function _ => hf function

/-! ### Connectives and sequences -/

/-- A logical operation costs its operands, the right one at the prices of its own place. -/
theorem holds_logical {self : Lowering} {left right : Expr}
    (hleft : law.Holds v (self left none) fun _ => True)
    (hright : law.Holds w (self right none) fun _ => True) (e : Expr) (op : BinaryOp) :
    law.Holds (v + w) (logical self e op left right) fun _ => True := by
  intro env s hs r s' hrun
  rcases hl : (self left none).runIn env s with ⟨err | condition, s₁⟩
  · rw [runIn_logical_left_error hl] at hrun
    obtain ⟨rfl, rfl⟩ := Prod.mk.inj hrun
    have hk := hleft env s hs _ _ hl
    exact ⟨hk.steady, law.spend hk.rel (Nat.le_add_right _ _), fun _ _ => trivial⟩
  have hk₁ := hleft env s hs _ _ hl
  -- The right operand starts from a state that is ready too, but inside of the connective.
  have hs₁ := (hs.steady hk₁.steady).inRightOf e.id
  rcases hr : (self right none).runIn (env.inRightOf e.id) s₁ with ⟨err | value, s₂⟩
  · rw [runIn_logical_right_error hl hr] at hrun
    obtain ⟨rfl, rfl⟩ := Prod.mk.inj hrun
    have hk₂ := hright _ _ hs₁ _ _ hr
    exact ⟨hk₁.steady.trans hk₂.steady, law.trans hk₁.rel (law.stuck e.id hk₂.rel),
      fun _ _ => trivial⟩
  have hk₂ := hright _ _ hs₁ _ _ hr
  rw [runIn_logical_ok hl hr] at hrun
  split at hrun
  · next hnative =>
    obtain ⟨rfl, rfl⟩ := Prod.mk.inj hrun
    exact ⟨hk₁.steady.trans hk₂.steady, law.native e.id hk₁.rel hk₂.rel hnative.1,
      fun _ _ => trivial⟩
  · obtain ⟨rfl, rfl⟩ := Prod.mk.inj hrun
    refine ⟨(hk₁.steady.trans hk₂.steady).trans (.of_eq (Nat.le_succ _) rfl rfl),
      law.guard e.id op condition.text value.text hk₁.rel hk₂.rel, fun _ _ => trivial⟩

/-- Moving texts away leaves one statement for each of them. -/
theorem holds_moveToTemporaries {hint : String} (hhint : isHint hint) (texts : List String) :
    law.Holds 0 (moveToTemporaries hint texts) fun _ => True := by
  induction texts with
  | nil => exact holds_pure trivial
  | cons text texts ih =>
    unfold moveToTemporaries
    split
    · exact ih.bind fun _ _ => holds_pure trivial
    · exact (holds_keepInTemporary hint text hhint).bind fun _ _ =>
        ih.bind fun _ _ => holds_pure trivial

/-- The same for the parts of a sequence. -/
theorem holds_move {hint : String} (hhint : isHint hint) (parts : Parts) :
    law.Holds 0 (parts.move hint) fun _ => True :=
  (holds_moveToTemporaries hhint parts.open).bind fun _ _ => holds_pure trivial

/-- A further part costs what its lowering costs, whether the others have to move or not. -/
theorem holds_add {m : LowerM String} (h : law.Holds w m fun _ => True) {hint : String}
    (hhint : isHint hint) (parts : Parts) : law.Holds w (parts.add hint m) fun _ => True := by
  intro env s hs r s' hrun
  -- Three outcomes: the lowering fails, it leaves no statement, or it leaves some and the earlier
  -- texts move in front of them.
  rcases hm : m.runIn env s with ⟨err | text, s₁⟩
  · rw [runIn_add_error hm] at hrun
    obtain ⟨rfl, rfl⟩ := Prod.mk.inj hrun
    have hk := h env s hs _ _ hm
    exact ⟨hk.steady, hk.rel, fun _ _ => trivial⟩
  have hk := h env s hs _ _ hm
  by_cases hcount : s₁.pending.length = s.pending.length
  · rw [runIn_add_quiet hm hcount] at hrun
    obtain ⟨rfl, rfl⟩ := Prod.mk.inj hrun
    exact ⟨hk.steady, hk.rel, fun _ _ => trivial⟩
  · -- Taking out and putting back are one step of the law, around the moves.
    have hcut : Steady p s₁ (s₁.splitAt s.pending.length).2 := .of_eq (Nat.le_refl _) rfl rfl
    obtain ⟨parts', s₂, hmove⟩ :=
      exists_runIn_move env (s₁.splitAt s.pending.length).2 hint parts
    rw [runIn_add_moved hm hcount hmove] at hrun
    obtain ⟨rfl, rfl⟩ := Prod.mk.inj hrun
    have hmoves : law.Holds 0 (parts.move hint) fun _ => True := holds_move hhint parts
    have hk₂ := hmoves env _ ((hs.steady hk.steady).steady hcut) _ _ hmove
    have hput : Steady p s₂ (s₂.putBack (s₁.splitAt s.pending.length).1) :=
      .of_eq (Nat.le_refl _) rfl rfl
    exact ⟨((hk.steady.trans hcut).trans hk₂.steady).trans hput, law.insert hk.rel hk₂.rel,
      fun _ _ => trivial⟩

/-! ### Lowering -/

/-- **Laws of built computations.** What keeps a law where parts are lowered, keeps it in all. -/
theorem holds_of_built {S : Setting} {law : RunLaw S.prices} {I : NodeId → Prop}
    (hself : ∀ e desired, law.Holds (S.prices.price e) (S.self e desired) fun _ => True)
    (h : Built S I w m Q) : law.Holds w m Q := by
  -- By induction on how the lowering is built: each primitive has a lemma above, and the sequence
  -- adds up the prices.
  induction h with
  | pure h => exact (holds_pure h).weaken (Nat.zero_le _) fun _ h => h
  | bind _ _ ih₁ ih₂ => exact ih₁.bind ih₂
  | weaken _ hw hQ ih => exact ih.weaken hw hQ
  | fail _ => exact holds_of_still (fun _ _ => rfl) fun _ _ h => by cases h
  | typeOf _ =>
    refine holds_of_still (fun env s => ?_) fun _ _ _ => trivial
    rw [runIn_typeOf]
  | constantOf _ =>
    refine holds_of_still (fun _ _ => rfl) fun {env s} hs c hc => ?_
    obtain rfl : env.constant? s _ = c := Except.ok.inj hc
    exact hs.constant _
  | boundObject? _ => exact holds_of_still (fun _ _ => rfl) fun _ _ _ => trivial
  | selectionOf _ => exact holds_of_still (fun _ _ => rfl) fun _ _ _ => trivial
  | config f => exact holds_of_still (fun _ _ => rfl) fun _ _ _ => trivial
  | bodySource => exact holds_source
  | newLocal hint => exact holds_newLocal hint
  | accessorBox key h => exact holds_accessorBox key h
  | reportError message span => exact holds_reportError message span
  | synthesizeNode type span _ ih => exact (holds_synthesizeNode type span).free ih
  | synthesizeUse name obj type span _ ih =>
    refine (holds_synthesizeUse name obj type span).free fun e he => ?_
    obtain ⟨node, hnode, rfl⟩ := he
    exact ih node hnode
  | synthesizeSelector type span selection _ ih => exact holds_synthesizeSelector type span selection ih
  | synthesizeSuspending type span _ ih => exact holds_synthesizeSuspending type span ih
  | recordLowered e => exact holds_recordLowered e
  | requestBody body sig _ asked _ ih₁ ih₂ => exact holds_bodySource ih₁ asked ih₂
  | lower _ desired => exact hself _ desired
  | keepInTemporary hint value h => exact holds_keepInTemporary hint value h
  | assigned write target value h => exact holds_assigned write target value h
  | placeCall _ sig call => exact holds_placeCall _ sig call
  | logical _ _ _ _ => exact holds_logical (hself _ none) (hself _ none) _ _
  | add hhint parts _ ih => exact holds_add ih hhint parts

/-- Nothing is asked of the nodes and connectives of an expression. -/
theorem fits_of_forall (S : Setting) (h : ∀ e, S.connective e) (e : Expr) :
    e.Fits S fun _ => True :=
  ⟨e.all_of_forall fun _ => trivial, e.outer_of_forall h⟩

/-- **Laws of lowering.** A law that the steps keep is kept by lowering, which spends the price of
the expression. -/
theorem holds_within (law : RunLaw p) (n : Nat) (e : Expr) (desired : Option GoType) :
    law.Holds (p.price e) (within n e desired) fun _ => True := by
  induction n generalizing e desired with
  | zero =>
    exact (holds_of_still (fun _ _ => rfl) fun _ _ h => by cases h).weaken (Nat.zero_le _)
      fun _ h => h
  | succ n ih =>
    have hfits := fits_of_forall ⟨within n, p, fun _ => True⟩ (fun _ => trivial) e
    exact holds_of_built (S := ⟨within n, p, fun _ => True⟩) ih (Built.expression hfits desired)

/-- What a run of lowering comes to by a law. -/
theorem kept_lower (law : RunLaw p) {env : Env} {s : FunctionState} (hs : Ready p env s) (e : Expr)
    (desired : Option GoType) :
    law.Kept env (p.price e) s ((lower e desired).runIn env s).1
      ((lower e desired).runIn env s).2 fun _ => True :=
  law.holds_within (nestingBound e.size) e desired env s hs ((lower e desired).runIn env s).1
    ((lower e desired).runIn env s).2 rfl

end RunLaw

/-! ### What there is stays -/

/-- All that a state has collected is still there in another, which has only added to it. -/
structure Extends (s s' : FunctionState) : Prop where
  pending : s.pending <+: s'.pending
  bodyRequests : s.bodyRequests <:+ s'.bodyRequests
  lowered : s.lowered <:+ s'.lowered

namespace Extends

variable {s s₁ s' : FunctionState}

theorem refl (s : FunctionState) : Extends s s :=
  ⟨List.prefix_rfl, List.suffix_rfl, List.suffix_rfl⟩

/-- Extending a state composes. -/
theorem trans (h : Extends s s₁) (h' : Extends s₁ s') : Extends s s' :=
  ⟨h.pending.trans h'.pending, h.bodyRequests.trans h'.bodyRequests, h.lowered.trans h'.lowered⟩

/-- A state extends another that has the same statements, requests and records. -/
theorem of_still (hpending : s'.pending = s.pending) (hbodies : s'.bodyRequests = s.bodyRequests)
    (hlowered : s'.lowered = s.lowered) : Extends s s' :=
  ⟨hpending ▸ List.prefix_rfl, hbodies ▸ List.suffix_rfl, hlowered ▸ List.suffix_rfl⟩

/-- Statements are added at the end. -/
theorem of_pending {added : List Statement} (hpending : s'.pending = s.pending ++ added)
    (hbodies : s'.bodyRequests = s.bodyRequests) (hlowered : s'.lowered = s.lowered) :
    Extends s s' :=
  ⟨⟨added, hpending.symm⟩, hbodies ▸ List.suffix_rfl, hlowered ▸ List.suffix_rfl⟩

/-- What a part has added can be taken out again, and no more than that is. -/
theorem splitAt (h : Extends s s') : Extends s (s'.splitAt s.pending.length).2 := by
  obtain ⟨added, hadded⟩ := h.pending
  have htake : (s'.splitAt s.pending.length).2.pending = s.pending := by
    simp [FunctionState.splitAt, ← hadded]
  exact ⟨⟨[], by rw [List.append_nil, htake]⟩, h.bodyRequests, h.lowered⟩

end Extends

/-- **Nothing is lost.** Whatever happens, what was pending stays where it was, and what has been
recorded stays recorded. -/
def extending (p : Prices) : RunLaw p where
  rel _ _ _ s s' := Extends s s'
  stay := .refl _
  spend h _ := h
  trans h h' := h.trans h'
  newLocal _ := .of_still rfl rfl rfl
  accessorBox {_ s} key _ := by
    unfold FunctionState.accessorBox
    split
    · exact .refl s
    · exact .of_still rfl rfl rfl
  reportError _ _ := .of_still rfl rfl rfl
  newNode _ _ := .of_still rfl rfl rfl
  use _ _ _ _ := .of_still rfl rfl rfl
  select _ _ _ _ := .of_still rfl rfl rfl
  mark _ _ _ := .of_still rfl rfl rfl
  visit id := ⟨List.prefix_rfl, List.suffix_rfl, List.suffix_cons _ _⟩
  request _ _ := ⟨List.prefix_rfl, List.suffix_cons _ _, List.suffix_rfl⟩
  keep _ _ _ := .of_pending rfl rfl rfl
  assign _ _ _ _ := .of_pending rfl rfl rfl
  callStatement _ _ _ := .of_pending rfl rfl rfl
  callValue _ _ _ := .of_pending rfl rfl rfl
  native _ h h' _ := h.trans h'
  guard _ _ _ _ h h' :=
    (h.trans h'.splitAt).trans (.of_pending rfl rfl rfl)
  stuck _ h := h
  insert h h' := (h.splitAt.trans h').trans (.of_pending rfl rfl rfl)

/-- Lowering takes back nothing. -/
theorem steady_within {p : Prices} {env : Env} {s s' : FunctionState} (hs : Ready p env s) {n : Nat}
    {e : Expr} {desired : Option GoType} {r : Except CompileError Fragment}
    (h : (Lower.within n e desired).runIn env s = (r, s')) : Steady p s s' :=
  ((extending p).holds_within n e desired env s hs r s' h).steady

end GoLua
