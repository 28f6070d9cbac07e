import GoLua.Proofs.Law

/-!
# The frame of lowering

What is already pending, recorded as a temporary or reported when lowering starts has no bearing on
what lowering does. A run from a state with such lists is the run from the state without them, with
the lists put in front of what that run ends with (`lower_frame`). This holds of failing runs as
well, although connectives and sequences take pending statements out and put them back on the way:
they only cut behind what was pending when they started.

The counters, the overlay and the accessor boxes are not part of the frame; lowering reads them.
-/

namespace GoLua

/-! ### States with something in front -/

namespace FunctionState

/-- The state `t` with all that `s` has collected in front. -/
def after (t s : FunctionState) : FunctionState :=
  { t with
    pending := s.pending ++ t.pending
    temporaries := s.temporaries ++ t.temporaries
    reporter := ⟨s.reporter.diagnostics ++ t.reporter.diagnostics⟩ }

/-- A state without its pending statements, temporaries and diagnostics. -/
def cleared (s : FunctionState) : FunctionState :=
  { s with pending := [], temporaries := [], reporter := {} }

variable (s t : FunctionState)

/-- A state is its cleared self with its lists in front. -/
theorem cleared_after : s.cleared.after s = s := by
  simp [after, cleared]

theorem length_pending_after :
    (t.after s).pending.length = s.pending.length + t.pending.length :=
  List.length_append

/-- The name of a temporary does not depend on the frame. -/
theorem newTemporary_after (hint : String) :
    (t.after s).newTemporary hint = ((t.newTemporary hint).1, (t.newTemporary hint).2.after s) := by
  simp [newTemporary, newLocal, after, List.append_assoc]

theorem newStep_after : (t.after s).newStep = (t.newStep.1, t.newStep.2.after s) := rfl

theorem accessorBox_after (key : String) :
    (t.after s).accessorBox key = ((t.accessorBox key).1, (t.accessorBox key).2.after s) := by
  have hboxes : (t.after s).accessorBoxes = t.accessorBoxes := rfl
  unfold accessorBox
  rw [hboxes, newTemporary_after]
  split <;> rfl

theorem reportError_after (message : String) (span : Span) :
    (t.after s).reportError message span = (t.reportError message span).after s := by
  simp [reportError, Reporter.report, after, List.append_assoc]

/-- A statement is left behind the frame. -/
theorem leave_after (m : Made) : (t.after s).leave m = (t.leave m).after s := by
  simp [leave, push, after, List.append_assoc]

/-- A cut that starts behind the frame leaves the frame alone. -/
theorem splitAt_after (mark : Nat) :
    (t.after s).splitAt (s.pending.length + mark)
      = ((t.splitAt mark).1, (t.splitAt mark).2.after s) := by
  have hall : s.pending.take (s.pending.length + mark) = s.pending :=
    List.take_of_length_le (Nat.le_add_right _ _)
  simp [splitAt, after, List.drop_append, List.take_append, hall]

/-- What is put back comes behind the frame. -/
theorem putBack_after (stmts : List Statement) :
    (t.after s).putBack stmts = (t.putBack stmts).after s := by
  simp [putBack, after, List.append_assoc]

/-- A guard takes what was left behind the frame, and nothing of it. -/
theorem guardRight_after (env : Env) (id : NodeId) (op : BinaryOp) (mark : Nat)
    (condition value : String) :
    (t.after s).guardRight env id op (s.pending.length + mark) condition value
      = ((t.guardRight env id op mark condition value).1,
          (t.guardRight env id op mark condition value).2.after s) := by
  unfold guardRight
  rw [splitAt_after]
  dsimp only
  rw [newTemporary_after]
  dsimp only
  rw [leave_after]

end FunctionState

/-! ### Computations that keep a frame -/

/-- From a state with something in front, a computation does what it does without. -/
def LowerM.Frames {α : Type} (p : Prices) (m : LowerM α) : Prop :=
  ∀ env t, Ready p env t → ∀ s,
    m.runIn env (t.after s) = ((m.runIn env t).1, (m.runIn env t).2.after s)

namespace Frames

open Lower LowerM

variable {p : Prices} {α β : Type} {m : LowerM α}

/-- The second computation runs in a state that is ready as well. -/
theorem bind {v : Nat} {Q : α → Prop} {f : α → LowerM β}
    (hlaw : (extending p).Holds v m Q) (h : m.Frames p) (hf : ∀ a, Q a → (f a).Frames p) :
    (m >>= f).Frames p := by
  intro env t ht s
  have hframe := h env t ht s
  rcases hm : m.runIn env t with ⟨err | a, t₁⟩
  · rw [hm] at hframe
    rw [runIn_bind_error hm, runIn_bind_error hframe]
  · rw [hm] at hframe
    have hk := hlaw env t ht _ _ hm
    rw [runIn_bind_ok hm, runIn_bind_ok hframe]
    exact hf a (hk.result a rfl) env t₁ (ht.steady hk.steady) s

/-- A computation that takes one step, which the frame has no bearing on. -/
theorem of_step {a : Env → FunctionState → Except CompileError α}
    {step : Env → FunctionState → FunctionState}
    (hrun : ∀ env t, m.runIn env t = (a env t, step env t))
    (ha : ∀ env t s, a env (t.after s) = a env t)
    (hstep : ∀ env t s, step env (t.after s) = (step env t).after s) : m.Frames p := by
  intro env t _ s
  rw [hrun, hrun, ha, hstep]

theorem of_pure (a : α) : (pure a : LowerM α).Frames p :=
  of_step (runIn_pure · · a) (fun _ _ _ => rfl) fun _ _ _ => rfl

/-- A temporary is made behind the frame. -/
theorem keepInTemporary (hint value : String) :
    (Lower.keepInTemporary hint value).Frames p := by
  refine of_step (a := fun _ t => .ok (t.newTemporary hint).1)
    (runIn_keepInTemporary · · hint value) (fun _ t s => rfl) fun env t s => ?_
  rw [FunctionState.newTemporary_after, FunctionState.leave_after]

/-- So is a call that suspends. -/
theorem placeCall (e : Expr) (sig : Signature) (call : String) :
    (Lower.placeCall e sig call).Frames p := by
  intro env t _ s
  have hmarks : env.suspends (t.after s) e.id = env.suspends t e.id := rfl
  rw [RunLaw.runIn_placeCall, RunLaw.runIn_placeCall, hmarks]
  split
  · rw [FunctionState.newStep_after]
    dsimp only
    split
    · rw [FunctionState.leave_after]
    · rw [FunctionState.newTemporary_after, FunctionState.leave_after]
  · rfl

/-- A body request is no part of a frame. -/
theorem requestBody (source : BodySource) (body : Nat) (sig : Signature) :
    (Lower.requestBody source body sig).Frames p :=
  of_step (runIn_requestBody · · source body sig) (fun _ _ _ => rfl) fun _ _ _ => rfl

theorem recordLowered (e : Expr) : (Lower.recordLowered e).Frames p := by
  refine of_step (a := fun _ _ => .ok ()) (runIn_recordLowered · · e) (fun _ _ _ => rfl)
    fun env t s => ?_
  split <;> rfl

/-- Types are looked up in the overlay, which no frame changes. -/
theorem typeOf (e : Expr) : (Lower.typeOf e).Frames p := by
  intro env t _ s
  rw [runIn_typeOf, runIn_typeOf]
  rfl

/-! ### Connectives and sequences -/

/-- A connective cuts at the number of statements, which the frame shifts for both sides alike. -/
theorem logical {v : Nat} {self : Lowering} {left right : Expr}
    (hlaw : (extending p).Holds v (self left none) fun _ => True)
    (hleft : (self left none).Frames p) (hright : (self right none).Frames p) (e : Expr)
    (op : BinaryOp) : (Lower.logical self e op left right).Frames p := by
  intro env t ht s
  have hl := hleft env t ht s
  rcases hrunl : (self left none).runIn env t with ⟨err | condition, t₁⟩
  · rw [hrunl] at hl
    rw [runIn_logical_left_error hrunl, runIn_logical_left_error hl]
  rw [hrunl] at hl
  have ht₁ := (ht.steady (hlaw env t ht _ _ hrunl).steady).inRightOf e.id
  have hr := hright _ t₁ ht₁ s
  rcases hrunr : (self right none).runIn (env.inRightOf e.id) t₁ with ⟨err | value, t₂⟩
  · rw [hrunr] at hr
    rw [runIn_logical_right_error hrunl hrunr, runIn_logical_right_error hl hr]
  rw [hrunr] at hr
  -- Where the right operand begins is measured behind the frame, so the cut spares it.
  have hdrop : (t₂.after s).pending.drop (t₁.after s).pending.length
      = t₂.pending.drop t₁.pending.length := by
    simp [FunctionState.after, List.drop_append]
  have hmarks : env.suspends (t₂.after s) right.id = env.suspends t₂ right.id := rfl
  rw [runIn_logical_ok hrunl hrunr, runIn_logical_ok hl hr, hdrop, hmarks,
    FunctionState.length_pending_after, FunctionState.guardRight_after]
  split <;> rfl

/-- Moving texts leaves statements behind the frame. -/
theorem moveToTemporaries {hint : String} (hhint : isHint hint) (texts : List String) :
    (Lower.moveToTemporaries hint texts).Frames p := by
  induction texts with
  | nil => exact of_pure []
  | cons text texts ih =>
    have hrest : (extending p).Holds 0 (Lower.moveToTemporaries hint texts) fun _ => True :=
      RunLaw.holds_moveToTemporaries hhint texts
    unfold Lower.moveToTemporaries
    split
    · exact bind hrest ih fun _ _ => of_pure _
    · refine bind (RunLaw.holds_keepInTemporary hint text hhint) (keepInTemporary hint text)
        fun temporary _ => ?_
      exact bind hrest ih fun _ _ => of_pure _

theorem move {hint : String} (hhint : isHint hint) (parts : Parts) : (parts.move hint).Frames p :=
  bind (RunLaw.holds_moveToTemporaries hhint parts.open) (moveToTemporaries hhint parts.open)
    fun _ _ => of_pure _

/-- A further part of a sequence compares two numbers of statements, and the frame is in both. -/
theorem add {w : Nat} {m : LowerM String} (hlaw : (extending p).Holds w m fun _ => True)
    (h : m.Frames p) {hint : String} (hhint : isHint hint) (parts : Parts) :
    (parts.add hint m).Frames p := by
  intro env t ht s
  have hframe := h env t ht s
  rcases hm : m.runIn env t with ⟨err | text, t₁⟩
  · rw [hm] at hframe
    rw [runIn_add_error hm, runIn_add_error hframe]
  rw [hm] at hframe
  by_cases hcount : t₁.pending.length = t.pending.length
  · have hcount' : (t₁.after s).pending.length = (t.after s).pending.length := by
      rw [FunctionState.length_pending_after, FunctionState.length_pending_after, hcount]
    rw [runIn_add_quiet hm hcount, runIn_add_quiet hframe hcount']
  · have hcount' : (t₁.after s).pending.length ≠ (t.after s).pending.length := by
      rw [FunctionState.length_pending_after, FunctionState.length_pending_after]
      omega
    have hsteady : Steady p t (t₁.splitAt t.pending.length).2 :=
      (hlaw env t ht _ _ hm).steady.trans (.of_eq (Nat.le_refl _) rfl rfl)
    -- The part is cut off where it begins, so the moves run behind the same frame.
    obtain ⟨parts', t₂, hmove⟩ := exists_runIn_move env (t₁.splitAt t.pending.length).2 hint parts
    have hmove' := move hhint parts env _ (ht.steady hsteady) s
    rw [hmove] at hmove'
    have hcut := FunctionState.splitAt_after s t₁ t.pending.length
    rw [← FunctionState.length_pending_after] at hcut
    have hadd := runIn_add_moved hframe hcount' (show (parts.move hint).runIn env
      ((t₁.after s).splitAt (t.after s).pending.length).2 = _ by rw [hcut]; exact hmove')
    rw [runIn_add_moved hm hcount hmove, hadd, hcut, FunctionState.putBack_after]

/-! ### Lowering -/

/-- What keeps a frame where parts are lowered, keeps it in all. -/
theorem of_built {S : Setting} {I : NodeId → Prop} {w : Nat} {Q : α → Prop}
    (hlaw : ∀ e desired,
      (extending S.prices).Holds (S.prices.price e) (S.self e desired) fun _ => True)
    (hself : ∀ e desired, (S.self e desired).Frames S.prices) (h : Built S I w m Q) :
    m.Frames S.prices := by
  -- By induction on how the lowering is built. What only looks at the environment or the overlay
  -- gives the same by definition.
  induction h with
  | pure h => exact of_pure _
  | bind first _ ih₁ ih₂ => exact bind (RunLaw.holds_of_built hlaw first) ih₁ ih₂
  | weaken _ _ _ ih => exact ih
  | fail _ => exact fun _ _ _ _ => rfl
  | typeOf _ => exact typeOf _
  | constantOf _ => exact fun _ _ _ _ => rfl
  | boundObject? _ => exact fun _ _ _ _ => rfl
  | selectionOf _ => exact fun _ _ _ _ => rfl
  | config f => exact fun _ _ _ _ => rfl
  | bodySource => exact fun _ _ _ _ => rfl
  | newLocal hint => exact fun _ _ _ _ => rfl
  -- Boxes, messages and statements have their lists in the frame, and each of them adds at the end.
  | accessorBox key _ =>
    refine of_step (a := fun _ t => .ok (t.accessorBox key).1) (runIn_accessorBox · · key)
      (fun _ t s => ?_) fun _ t s => ?_
    · rw [FunctionState.accessorBox_after]
    · rw [FunctionState.accessorBox_after]
  | reportError message span =>
    exact of_step (a := fun _ _ => .ok ()) (runIn_reportError · · message span) (fun _ _ _ => rfl)
      fun _ t s => FunctionState.reportError_after s t message span
  -- A node that is synthesized is new to both runs, and its number is the same.
  | synthesizeNode type span rest ih =>
    exact bind (RunLaw.holds_synthesizeNode type span) (fun _ _ _ _ => rfl) ih
  | synthesizeUse name obj type span rest ih =>
    refine bind (RunLaw.holds_synthesizeUse name obj type span) (fun _ _ _ _ => rfl) fun e he => ?_
    obtain ⟨node, hnode, rfl⟩ := he
    exact ih node hnode
  | synthesizeSelector type span selection _ ih =>
    have hnode : (extending S.prices).Holds 0 _ fun node : Node => S.prices.fresh node.id :=
      RunLaw.holds_synthesizeSelector (k := pure) type span selection
        fun node hfresh => RunLaw.holds_pure hfresh
    have hframes := bind hnode (fun _ _ _ _ => rfl) ih
    simpa only [bind_assoc, pure_bind] using hframes
  | synthesizeSuspending type span _ ih =>
    have hnode : (extending S.prices).Holds 0 _ fun node : Node => S.prices.fresh node.id :=
      RunLaw.holds_synthesizeSuspending (k := pure) type span
        fun node hfresh => RunLaw.holds_pure hfresh
    have hframes := bind hnode (fun _ _ _ _ => rfl) ih
    simpa only [bind_assoc, pure_bind] using hframes
  | recordLowered e => exact recordLowered e
  -- A body source is asked with the requests so far, which are in no frame.
  | requestBody body sig _ asked _ ih₁ ih₂ =>
    refine bind RunLaw.holds_source (fun _ _ _ _ => rfl) fun source? _ => ?_
    cases source? with
    | none => exact ih₁
    | some source =>
      rw [asked]
      exact bind (RunLaw.holds_requestBody source body sig) (requestBody source body sig)
        fun function _ => ih₂ function
  | lower _ desired => exact hself _ desired
  | keepInTemporary hint value _ => exact keepInTemporary hint value
  | assigned write target value _ =>
    exact of_step (a := fun _ _ => .ok (.atom "")) (RunLaw.runIn_assigned · · write target value)
      (fun _ _ _ => rfl) fun _ t s => FunctionState.leave_after s t _
  | placeCall _ sig call => exact placeCall _ sig call
  -- What cuts statements off does so at a mark that counts the frame in.
  | logical _ _ _ _ =>
    exact logical (hlaw _ none) (hself _ none) (hself _ none) _ _
  | add hhint parts first ih => exact add (RunLaw.holds_of_built hlaw first) ih hhint parts

/-- Lowering keeps a frame, with any number of lowerings inside one another. -/
theorem within (p : Prices) (n : Nat) (e : Expr) (desired : Option GoType) :
    (Lower.within n e desired).Frames p := by
  induction n generalizing e desired with
  | zero => exact fun _ _ _ _ => rfl
  | succ n ih =>
    have hfits := RunLaw.fits_of_forall ⟨Lower.within n, p, fun _ => True⟩ (fun _ => trivial) e
    exact of_built (S := ⟨Lower.within n, p, fun _ => True⟩)
      (fun e desired => (extending p).holds_within n e desired) ih
      (Built.expression hfits desired)

end Frames

/-- **The frame law.** A run of lowering, successful or not, is the run from the state without
pending statements, temporaries and diagnostics, with those lists put in front of what it ends
with. The outcome is the same, and so is all the rest of the state. -/
theorem lower_frame (e : Expr) (desired : Option GoType) (env : Env) (s : FunctionState) :
    (lower e desired).runIn env s =
      (((lower e desired).runIn env s.cleared).1,
        ((lower e desired).runIn env s.cleared).2.after s) := by
  have hframe := Frames.within (freePrices env s.cleared) (Lower.nestingBound e.size) e desired env
    s.cleared (ready_freePrices env s.cleared) s
  rwa [FunctionState.cleared_after] at hframe

end GoLua
