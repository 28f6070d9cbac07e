import GoLua.Proofs.Law

/-!
# Resume steps have no gaps

A suspended function is resumed by the number of the call at which it stopped, and the code that
resumes it dispatches over those numbers. So the calls of a function, read from its first statement to
its last, have to carry the numbers 0, 1, 2, … without a gap and without a repetition.

That is not plain from how a number comes about. A step is taken before the statement is left;
afterwards the statement may be cut off, be put into the branch of a guard, or be put back behind
assignments that were made later. Two things carry the argument. Every run adds its statements at the
end, with the steps that it took in their order (`Stepped`), which is a law (`stepping`) since
a guard takes the place of its branch. And the assignments that are put before the statements of a
part take no step: a run that may spend nothing takes none.

`stepsOf_session` says it of all that happens to a state: of runs in any order, failing ones
included, with the pending statements drained in between.
-/

namespace GoLua

/-! ### The steps of statements -/

mutual

/-- The steps of the calls in a statement, in the order of its text. -/
def Statement.steps : Statement → List Nat
  | .assign _ _ => []
  | .callAssign _ _ step => [step]
  | .guard _ _ _ body _ => stepsOf body
termination_by structural s => s

/-- The steps of the calls in several statements. -/
def stepsOf : List Statement → List Nat
  | [] => []
  | s :: ss => s.steps ++ stepsOf ss
termination_by structural ss => ss

end

/-- The steps of two lists are counted in order. -/
theorem stepsOf_append (ss ts : List Statement) : stepsOf (ss ++ ts) = stepsOf ss ++ stepsOf ts := by
  induction ss with
  | nil => rfl
  | cons s ss ih => simp only [List.cons_append, stepsOf, ih, List.append_assoc]

@[simp] theorem stepsOf_singleton (s : Statement) : stepsOf [s] = s.steps :=
  List.append_nil s.steps

/-! ### What a run adds -/

/-- A run has taken at most `w` steps, and its statements, which come last, carry them in order. -/
structure Stepped (w : Nat) (s s' : FunctionState) : Prop where
  taken : ∃ count ≤ w, s'.nextStep = s.nextStep + count ∧
    ∃ added, s'.pending = s.pending ++ added ∧ stepsOf added = List.range' s.nextStep count

namespace Stepped

variable {v w : Nat} {s s₁ s' : FunctionState}

/-- At most something else has changed. -/
theorem of_still (hpending : s'.pending = s.pending) (hnext : s'.nextStep = s.nextStep) :
    Stepped w s s' :=
  ⟨0, Nat.zero_le w, hnext, [], by rw [hpending, List.append_nil], rfl⟩

theorem spend (h : Stepped v s s') (hw : v ≤ w) : Stepped w s s' := by
  obtain ⟨count, hcount, hrest⟩ := h
  exact ⟨count, Nat.le_trans hcount hw, hrest⟩

/-- Steps of two runs follow each other. -/
theorem trans (h : Stepped v s s₁) (h' : Stepped w s₁ s') : Stepped (v + w) s s' := by
  obtain ⟨count, hcount, hnext, added, hadded, hsteps⟩ := h
  obtain ⟨count', hcount', hnext', added', hadded', hsteps'⟩ := h'
  refine ⟨count + count', Nat.add_le_add hcount hcount', by omega, added ++ added', ?_, ?_⟩
  · rw [hadded', hadded, List.append_assoc]
  · rw [stepsOf_append, hsteps, hsteps', hnext, ← List.range'_append_1]

/-- Of two runs in a row, the earlier one leaves its statements first and takes the smaller steps. -/
theorem steps_lt (h : Stepped v s s₁) (h' : Stepped w s₁ s') :
    ∃ earlier later, s₁.pending = s.pending ++ earlier ∧ s'.pending = s₁.pending ++ later ∧
      ∀ i ∈ stepsOf earlier, ∀ j ∈ stepsOf later, i < j := by
  obtain ⟨count, -, hnext, earlier, hearlier, hsteps⟩ := h
  obtain ⟨count', -, -, later, hlater, hsteps'⟩ := h'
  refine ⟨earlier, later, hearlier, hlater, fun i hi j hj => ?_⟩
  rw [hsteps, List.mem_range'_1] at hi
  rw [hsteps', List.mem_range'_1] at hj
  omega

/-- A statement without calls has been left. -/
theorem of_assigned {stmt : Statement} (hpending : s'.pending = s.pending ++ [stmt])
    (hnext : s'.nextStep = s.nextStep) (hsteps : stmt.steps = []) : Stepped 0 s s' :=
  ⟨0, Nat.le_refl 0, hnext, [stmt], hpending, by rw [stepsOf_singleton, hsteps]; rfl⟩

/-- A call has been left with the step that was taken for it. -/
theorem of_called {stmt : Statement} (hw : 1 ≤ w) (hpending : s'.pending = s.pending ++ [stmt])
    (hnext : s'.nextStep = s.nextStep + 1) (hsteps : stmt.steps = [s.nextStep]) : Stepped w s s' :=
  ⟨1, hw, hnext, [stmt], hpending, by rw [stepsOf_singleton, hsteps]; rfl⟩

/-- **A guard takes the place of its branch.** The steps of the branch come to stand where the
statements stood that were cut off. -/
theorem guardRight {s₂ : FunctionState} (h : Stepped v s s₁) (h' : Stepped w s₁ s₂) (env : Env)
    (id : NodeId) (op : BinaryOp) (condition value : String) :
    Stepped (v + w) s (s₂.guardRight env id op s₁.pending.length condition value).2 := by
  refine h.trans ?_
  obtain ⟨count, hcount, hnext, body, hbody, hsteps⟩ := h'
  have hguard := s₂.guardRight_of_append hbody env id op condition value
  exact ⟨count, hcount, hnext, _, hguard.1, by rw [stepsOf_singleton, Statement.steps, hsteps]⟩

/-- **Moves take no step.** What is put before the statements of a part was left by a run that could
spend nothing, so the steps of the part stay in order. -/
theorem insert {s₂ : FunctionState} (h : Stepped w s s₁)
    (hmoves : Stepped 0 (s₁.splitAt s.pending.length).2 s₂) :
    Stepped w s (s₂.putBack (s₁.splitAt s.pending.length).1) := by
  obtain ⟨count, hcount, hnext, added, hadded, hsteps⟩ := h
  rw [s₁.splitAt_of_append hadded] at hmoves ⊢
  obtain ⟨none, hnone, hstill, moves, hmoved, hquiet⟩ := hmoves
  obtain rfl : none = 0 := Nat.le_zero.mp hnone
  refine ⟨count, hcount, hstill.trans hnext, moves ++ added, ?_, ?_⟩
  · change s₂.pending ++ added = _
    rw [hmoved, List.append_assoc]
  · rw [stepsOf_append, hquiet, hsteps]
    rfl

end Stepped

/-- **Stepping.** Where every suspending call has a price, a run takes no more steps than it may
spend, and leaves them in order. -/
def stepping (p : Prices) (hp : ∀ id, 1 ≤ p.suspend id) : RunLaw p where
  rel _ _ w s s' := Stepped w s s'
  stay := .of_still rfl rfl
  spend h hw := h.spend hw
  trans h h' := h.trans h'
  newLocal _ := .of_still rfl rfl
  accessorBox {_ s} key _ := by
    unfold FunctionState.accessorBox
    split
    · exact .of_still rfl rfl
    · exact .of_still rfl rfl
  reportError _ _ := .of_still rfl rfl
  newNode _ _ := .of_still rfl rfl
  use _ _ _ _ := .of_still rfl rfl
  select _ _ _ _ := .of_still rfl rfl
  mark _ _ _ := .of_still rfl rfl
  visit _ := .of_still rfl rfl
  request _ _ := .of_still rfl rfl
  keep _ _ _ := .of_assigned rfl rfl rfl
  assign _ _ _ _ := .of_assigned rfl rfl rfl
  callStatement id _ _ := .of_called (hp id) rfl rfl rfl
  callValue id _ _ := .of_called (hp id) rfl rfl rfl
  native _ h h' _ := h.trans h'
  guard id op condition value h h' := h.guardRight h' _ id op condition value
  stuck _ h := h
  insert h h' := h.insert h'

/-! ### Runs from outside -/

/-- What lowering can be asked for. -/
inductive Request where
  | expression (e : Expr) (desired : Option GoType)
  | conversion (e : Expr) (target : GoType)
  | implicit (e : Expr) (target : GoType)
  | implicitCopy (e : Expr) (target : GoType)
  | template (parens : Bool) (pattern : String) (operands : List Operand)

namespace Request

/-- The run that answers a request. -/
def run : Request → LowerM Fragment
  | .expression e desired => lower e desired
  | .conversion e target => lowerConversion e target
  | .implicit e target => lowerImplicit e target
  | .implicitCopy e target => lowerImplicitCopy e target
  | .template parens pattern operands => lowerTemplate parens pattern operands

/-- The trees that a request comes with have a property at all nodes. -/
def All (P : Expr → Prop) : Request → Prop
  | .expression e _ | .implicit e _ | .conversion e _ | .implicitCopy e _ => e.All P
  | .template _ _ _ => False

/-- How many lowerings may be inside one another. -/
def depth : Request → Nat
  | .expression e _ | .conversion e _ | .implicit e _ | .implicitCopy e _ =>
    Lower.nestingBound e.size
  | .template _ _ operands => Lower.nestingBound (operandsSize operands)

/-- All answers are computed by the operations of lowering. -/
theorem built (p : Prices) (request : Request) :
    ∃ w, Builds ⟨Lower.within request.depth, p, fun _ => True⟩ (fun _ => True) w request.run := by
  -- Every expression fits when nothing is asked of its nodes, so each of the five requests is
  -- built.
  have hfits := RunLaw.fits_of_forall ⟨Lower.within request.depth, p, fun _ => True⟩
    fun _ => trivial
  cases request with
  | expression e desired => exact ⟨p.price e, Built.lower (hfits e) desired⟩
  | conversion e target => exact ⟨p.price e, Built.conversion (hfits e) target⟩
  | implicit e target => exact ⟨p.price e, Built.implicit (hfits e) target⟩
  | implicitCopy e target => exact ⟨p.price e, Built.implicitCopy (hfits e) target⟩
  | template parens pattern operands =>
    refine ⟨_, Built.renderAs operands (fun o _ => ?_) parens pattern⟩
    cases o with
    | expr e => exact hfits e
    | _ => trivial

/-- A request for trees whose nodes are known only looks at nodes that are known. -/
theorem built_of_known (p : Prices) {I : NodeId → Prop} {request : Request}
    (h : request.All fun c => I c.id) :
    ∃ w, Builds ⟨Lower.within request.depth, p, fun _ => True⟩ I w request.run := by
  have hfits {e : Expr} (he : e.All fun c => I c.id) :
      e.Fits ⟨Lower.within request.depth, p, fun _ => True⟩ I :=
    ⟨he, e.outer_of_forall fun _ => trivial⟩
  cases request with
  | expression e desired => exact ⟨p.price e, Built.lower (hfits h) desired⟩
  | conversion e target => exact ⟨p.price e, Built.conversion (hfits h) target⟩
  | implicit e target => exact ⟨p.price e, Built.implicit (hfits h) target⟩
  | implicitCopy e target => exact ⟨p.price e, Built.implicitCopy (hfits h) target⟩
  | template parens pattern operands => exact h.elim

end Request

/-- Prices for which receives and all calls cost one step. -/
def stepPrices (env : Env) (s : FunctionState) : Prices :=
  { freePrices env s with
    suspend := fun _ => 1
    receive := 1
    suspend_fresh := fun _ _ => Nat.le_refl 1 }

/-- What is built from lowering takes steps in order, whether it succeeds or not. -/
theorem Stepped.of_built {α : Type} {n w : Nat} {m : LowerM α} {Q : α → Prop} {env : Env}
    {s s' : FunctionState} {r : Except CompileError α}
    (h : Built ⟨Lower.within n, stepPrices env s, fun _ => True⟩ (fun _ => True) w m Q)
    (hrun : m.runIn env s = (r, s')) : Stepped w s s' := by
  have hself := (stepping (stepPrices env s) fun _ => Nat.le_refl 1).holds_within n
  have hready : Ready (stepPrices env s) env s := ⟨fun _ => rfl, fun _ h => h⟩
  exact (RunLaw.holds_of_built hself h env s hready r s' hrun).rel

/-- A request takes its steps from where the counter stands. -/
theorem Stepped.of_request (request : Request) (env : Env) (s : FunctionState) :
    ∃ w, Stepped w s (request.run.runIn env s).2 := by
  obtain ⟨w, hbuilt⟩ := request.built (stepPrices env s)
  exact ⟨w, .of_built hbuilt rfl⟩

/-! ### Sessions -/

/-- What a state goes through between two runs, and with each of them. -/
inductive Action where
  /-- A run, whatever it reads. -/
  | run (env : Env) (request : Request)
  /-- The pending statements are taken out to be emitted. -/
  | drain

/-- A state, with the statements that have been taken out of it. -/
structure Session where
  emitted : List Statement := []
  state : FunctionState := {}

namespace Session

/-- All statements there have been, in the order in which they are emitted. -/
def statements (session : Session) : List Statement :=
  session.emitted ++ session.state.pending

/-- What an action does. A run counts whether it succeeds or not. -/
def act (session : Session) : Action → Session
  | .run env request => { session with state := (request.run.runIn env session.state).2 }
  | .drain => ⟨session.emitted ++ session.state.drain.1, session.state.drain.2⟩

/-- No step is missing, and none is out of order. -/
def Gapless (session : Session) : Prop :=
  stepsOf session.statements = List.range session.state.nextStep

/-- An action takes the next steps or none. -/
theorem Gapless.act {session : Session} (h : session.Gapless) (action : Action) :
    (session.act action).Gapless := by
  -- A request adds its statements, and its steps continue the range; draining moves statements
  -- only.
  cases action with
  | run env request =>
    obtain ⟨w, count, -, hnext, added, hadded, hsteps⟩ :=
      Stepped.of_request request env session.state
    have hstatements : (session.act (.run env request)).statements =
        session.statements ++ added := by
      simp only [statements, Session.act, hadded, List.append_assoc]
    unfold Gapless at h ⊢
    rw [hstatements, stepsOf_append, h, hsteps]
    simp only [Session.act, hnext, List.range_eq_range']
    simpa using List.range'_append_1 (s := 0) (m := session.state.nextStep) (n := count)
  | drain =>
    have hstatements : (session.act .drain).statements = session.statements :=
      List.append_nil _
    unfold Gapless at h ⊢
    rw [hstatements, h]
    rfl

/-- **Steps without gaps.** Whatever runs there have been on a new state, with whatever outcomes and
with the pending statements drained at any time: the calls of all statements, in the order of their
text, carry the steps 0, 1, … up to the next one. -/
theorem stepsOf_session (actions : List Action) :
    stepsOf (actions.foldl act {}).statements =
      List.range (actions.foldl act {}).state.nextStep := by
  have hrun (session : Session) (h : session.Gapless) : (actions.foldl act session).Gapless := by
    induction actions generalizing session with
    | nil => exact h
    | cons action actions ih => exact ih (session.act action) (h.act action)
  exact hrun {} rfl

end Session

end GoLua
