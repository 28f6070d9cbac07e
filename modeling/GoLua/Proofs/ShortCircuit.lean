import GoLua.Proofs.Law
import GoLua.Tree.Builder

/-!
# Right operands stay in their guards

The right operand of `&&` or `||` must not run where the left one decides. Two things are proved of
lowering for that.

* **At the connective** (`ShortCircuits`): what the right operand leaves among the pending statements
  becomes the branch of one guard, all of it and nothing else; without a guard it leaves nothing.
* **Everywhere else** (`Placed`): whatever sequences around a connective take out, move and put back,
  a statement ends up under exactly the guards of those connectives in whose right operands it was
  made. The state keeps a record of all statements as they were made, so that this can be said of the
  statements that a run leaves: they are the ones made in the run, each in its place.
-/

namespace GoLua

/-! ### At the connective -/

/-- **Short circuit.** How the run of a connective is put together from the runs of its operands. -/
inductive ShortCircuits (self : Lowering) (env : Env) (s : FunctionState) (e : Expr) (op : BinaryOp)
    (left right : Expr) : Fragment → FunctionState → Prop where
  /-- The right operand leaves nothing and may not suspend: the operator is written as it is. -/
  | native {condition value : Fragment} {s₁ s₂ : FunctionState} {before : List Statement}
      (runLeft : (self left none).runIn env s = (.ok condition, s₁))
      (runRight : (self right none).runIn (env.inRightOf e.id) s₁ = (.ok value, s₂))
      (pendingLeft : s₁.pending = s.pending ++ before)
      (quiet : s₂.pending = s₁.pending)
      (unmarked : env.suspends s₂ right.id = false) :
      ShortCircuits self env s e op left right
        (.operation (condition.operand ++ " " ++ op.luaToken ++ " " ++ value.operand)) s₂
  /-- Else one statement is added behind those of the left operand: a guard, with all statements of
  the right operand as its branch. -/
  | guarded {condition value : Fragment} {s₁ s₂ s' : FunctionState} {before body : List Statement}
      {result : String}
      (runLeft : (self left none).runIn env s = (.ok condition, s₁))
      (runRight : (self right none).runIn (env.inRightOf e.id) s₁ = (.ok value, s₂))
      (pendingLeft : s₁.pending = s.pending ++ before)
      (pendingRight : s₂.pending = s₁.pending ++ body)
      (loud : body ≠ [] ∨ env.suspends s₂ right.id = true)
      (pending : s'.pending = s.pending ++ before ++
        [.guard result condition.text (op == .logicalAnd) body value.text]) :
      ShortCircuits self env s e op left right (.atom result) s'

section

open Lower

variable {env : Env} {s s' : FunctionState} {left right : Expr} {f : Fragment}

/-- A connective whose operands only add to what is pending, short-circuits. -/
theorem shortCircuits_of_logical {self : Lowering} {e : Expr} {op : BinaryOp}
    (hself : ∀ {env s e f s'}, (self e none).runIn env s = (.ok f, s') → s.pending <+: s'.pending)
    (h : (logical self e op left right).runIn env s = (.ok f, s')) :
    ShortCircuits self env s e op left right f s' := by
  rcases hl : (self left none).runIn env s with ⟨err | condition, s₁⟩
  · rw [runIn_logical_left_error hl] at h
    simp at h
  rcases hr : (self right none).runIn (env.inRightOf e.id) s₁ with ⟨err | value, s₂⟩
  · rw [runIn_logical_right_error hl hr] at h
    simp at h
  obtain ⟨before, hbefore⟩ := hself hl
  obtain ⟨body, hbody⟩ := hself hr
  -- What the cut takes out is what the right operand has added.
  have hdrop : s₂.pending.drop s₁.pending.length = body := by rw [← hbody, List.drop_left]
  rw [runIn_logical_ok hl hr, hdrop] at h
  split at h
  · next hnative =>
    obtain ⟨hf, rfl⟩ := Prod.mk.inj h
    obtain rfl := Except.ok.inj hf
    refine .native hl hr hbefore.symm ?_ hnative.2
    rw [← hbody, hnative.1, List.append_nil]
  · next hnative =>
    obtain ⟨hf, rfl⟩ := Prod.mk.inj h
    obtain rfl := Except.ok.inj hf
    refine .guarded hl hr hbefore.symm hbody.symm ?_ ?_
    · rcases List.eq_nil_or_concat body with hnil | ⟨init, last, hlast⟩
      · exact .inr (by simpa [hnil] using hnative)
      · exact .inl (by simp [hlast])
    · rw [(s₂.guardRight_of_append hbody.symm env e.id op condition.text value.text).1, ← hbefore]
      rfl

end

/-! ### Where statements are placed -/

/-- **Placement.** `Placed inside stmts made` says that `made` are the statements in a list, branches
included, and that each of them was made where it stands: inside of the right operands `inside`, and
of the connectives whose guards are around it. -/
inductive Placed : List NodeId → List Statement → List Made → Prop where
  | nil {inside : List NodeId} : Placed inside [] []
  | assign {inside : List NodeId} {ss : List Statement} {ms : List Made} (target value : String)
      {write : Option HostWrite} (rest : Placed inside ss ms) :
      Placed inside (.assign target value :: ss)
        (⟨inside, .assign target value, none, write⟩ :: ms)
  | callAssign {inside : List NodeId} {ss : List Statement} {ms : List Made}
      (target : Option String) (call : String) (step : Nat) (rest : Placed inside ss ms) :
      Placed inside (.callAssign target call step :: ss)
        (⟨inside, .callAssign target call step, none, none⟩ :: ms)
  | guard {inside : List NodeId} {body ss : List Statement} {bs ms : List Made} (id : NodeId)
      (result condition : String) (isAnd : Bool) (value : String)
      (branch : Placed (id :: inside) body bs) (rest : Placed inside ss ms) :
      Placed inside (.guard result condition isAnd body value :: ss)
        (⟨inside, .guard result condition isAnd body value, some id, none⟩ :: (bs ++ ms))

namespace Placed

variable {inside : List NodeId} {ss ts : List Statement} {ms ns : List Made}

/-- What two runs place, they place one after the other. -/
theorem append (h : Placed inside ss ms) (h' : Placed inside ts ns) :
    Placed inside (ss ++ ts) (ms ++ ns) := by
  induction h with
  | nil => exact h'
  | assign target value _ ih => exact .assign target value (ih h')
  | callAssign target call step _ ih => exact .callAssign target call step (ih h')
  | guard id result condition isAnd value branch _ _ ih =>
    have hrest := Placed.guard id result condition isAnd value branch (ih h')
    rwa [← List.append_assoc] at hrest

theorem eq_nil (h : Placed inside [] ms) : ms = [] := by
  cases h
  rfl

end Placed

/-- The statements that one state has more than another are those that were made in between, and
they stand where they were made. -/
structure Confined (inside : List NodeId) (s s' : FunctionState) : Prop where
  intro ::
  placed : ∃ stmts made placed, s'.pending = s.pending ++ stmts ∧ s'.made = made ++ s.made ∧
    made.Perm placed ∧ Placed inside stmts placed

namespace Confined

variable {inside : List NodeId} {s s₁ s' : FunctionState}

theorem of_still (hpending : s'.pending = s.pending) (hmade : s'.made = s.made) :
    Confined inside s s' :=
  ⟨[], [], [], by simp [hpending], by simp [hmade], .nil, .nil⟩

/-- What is confined by two runs is confined by both together. -/
theorem trans (h : Confined inside s s₁) (h' : Confined inside s₁ s') : Confined inside s s' := by
  obtain ⟨stmts, made, placed, hpending, hmade, hperm, hplaced⟩ := h.placed
  obtain ⟨stmts', made', placed', hpending', hmade', hperm', hplaced'⟩ := h'.placed
  refine ⟨stmts ++ stmts', made' ++ made, placed ++ placed', ?_, ?_, ?_, hplaced.append hplaced'⟩
  · rw [hpending', hpending, List.append_assoc]
  · rw [hmade', hmade, List.append_assoc]
  · exact (List.perm_append_comm).trans (hperm.append hperm')

/-- A statement that is no guard has just been made. -/
theorem of_leave {m : Made} (h : Placed inside [m.statement] [m])
    (hpending : s'.pending = s.pending ++ [m.statement]) (hmade : s'.made = m :: s.made) :
    Confined inside s s' :=
  ⟨[m.statement], _, _, hpending, hmade, .refl _, h⟩

/-- The branch of a guard was made inside of the connective, and the guard itself outside of it. -/
theorem of_guard {env : Env} {id : NodeId} (op : BinaryOp) (condition value : String)
    (h : Confined (id :: env.inside) s s') :
    Confined env.inside s (s'.guardRight env id op s.pending.length condition value).2 := by
  obtain ⟨body, made, placed, hpending, hmade, hperm, hplaced⟩ := h.placed
  obtain ⟨hguard, hrecord⟩ := s'.guardRight_of_append hpending env id op condition value
  have hplacedGuard : Placed env.inside _ _ :=
    .guard id ("_v" ++ toString s'.nextName) condition (op == .logicalAnd) value hplaced .nil
  rw [List.append_nil] at hplacedGuard
  rw [hmade, ← List.cons_append] at hrecord
  exact ⟨_, _, _, hguard, hrecord, hperm.cons _, hplacedGuard⟩

/-- What a part has added is still where it was made when something was put before it. -/
theorem of_insert {s₂ : FunctionState} (h : Confined inside s s₁)
    (h' : Confined inside (s₁.splitAt s.pending.length).2 s₂) :
    Confined inside s (s₂.putBack (s₁.splitAt s.pending.length).1) := by
  obtain ⟨stmts, made, placed, hpending, hmade, hperm, hplaced⟩ := h.placed
  obtain ⟨moves, made', placed', hpending', hmade', hperm', hplaced'⟩ := h'.placed
  have hcut := s₁.splitAt_of_append hpending
  rw [hcut] at hpending' hmade' ⊢
  refine ⟨moves ++ stmts, made' ++ made, placed' ++ placed, ?_, ?_, hperm'.append hperm,
    hplaced'.append hplaced⟩
  · change s₂.pending ++ stmts = _
    rw [hpending', List.append_assoc]
  · change s₂.made = _
    rw [hmade', List.append_assoc, ← hmade]

end Confined

/-- **Confinement.** In a run that succeeds, every step leaves statements where they were made. -/
def confining (p : Prices) : RunLaw p where
  rel succeeded env _ s s' := succeeded = true → Confined env.inside s s'
  stay _ := .of_still rfl rfl
  spend h _ := h
  trans h h' hb := (h rfl).trans (h' hb)
  newLocal _ _ := .of_still rfl rfl
  accessorBox {_ s} key _ _ := by
    unfold FunctionState.accessorBox
    split
    · exact .of_still rfl rfl
    · exact .of_still rfl rfl
  reportError _ _ _ := .of_still rfl rfl
  newNode _ _ _ := .of_still rfl rfl
  use _ _ _ _ _ := .of_still rfl rfl
  select _ _ _ _ _ := .of_still rfl rfl
  mark _ _ _ _ := .of_still rfl rfl
  visit _ _ := .of_still rfl rfl
  request _ _ _ := .of_still rfl rfl
  keep _ _ _ _ := .of_leave (.assign _ _ .nil) rfl rfl
  assign _ _ _ _ _ := .of_leave (.assign _ _ .nil) rfl rfl
  callStatement _ _ _ _ := .of_leave (.callAssign _ _ _ .nil) rfl rfl
  callValue _ _ _ _ := .of_leave (.callAssign _ _ _ .nil) rfl rfl
  native {env v w s s₁ s₂} id h h' hnone _ := by
    obtain ⟨body, made, placed, hpending, hmade, hperm, hplaced⟩ := (h' rfl).placed
    -- Nothing was left, so nothing was made.
    have hbody : body = [] := by rw [← hnone, hpending, List.drop_left]
    subst hbody
    have hplaced := hplaced.eq_nil
    subst hplaced
    have hnothing := hperm.eq_nil
    subst hnothing
    exact (h rfl).trans (.of_still (by simpa using hpending) (by simpa using hmade))
  guard id op condition value h h' _ := (h rfl).trans (.of_guard op condition value (h' rfl))
  stuck _ _ hb := by cases hb
  insert h h' _ := .of_insert (h rfl) (h' rfl)

/-! ### Lowering -/

section

open Lower

variable {env : Env} {s s' : FunctionState} {f : Fragment}

/-- Lowering only adds to what is pending. -/
theorem prefix_pending_within {n : Nat} {e : Expr} {desired : Option GoType}
    (h : (within n e desired).runIn env s = (.ok f, s')) : s.pending <+: s'.pending :=
  ((extending (freePrices env s)).holds_within n e desired env s (ready_freePrices env s)
    _ _ h).rel.pending

/-- A connective without a constant value is recorded, and lowered by its rule. -/
theorem runIn_within_connective {n : Nat} {node : Node} {op : BinaryOp} {left right : Expr}
    {desired : Option GoType} (hop : op.isLogical) (hconstant : env.constant? s node.id = none)
    (h : (within (n + 1) (.binary node op left right) desired).runIn env s = (.ok f, s')) :
    (logical (within n) (.binary node op left right) op left right).runIn env
      { s with lowered := node.id :: s.lowered } = (.ok f, s') := by
  -- The connective has a type and no value, so its run is that of `logical`.
  obtain ⟨type, s₁, htype, h⟩ := LowerM.runIn_bind_eq_ok h
  obtain rfl : s = s₁ := by
    rw [runIn_typeOf] at htype
    exact (Prod.mk.inj htype).2
  have hnone : (constantOf (.binary node op left right)).runIn env s = (.ok none, s) := by
    rw [runIn_constantOf]
    exact congrArg (fun c => (Except.ok c, s)) hconstant
  rw [LowerM.runIn_bind_ok hnone, LowerM.runIn_bind_ok (runIn_recordLowered env s _)] at h
  cases op <;> first | exact h | cases hop

/-- **Right operands are isolated.** In a run of lowering that succeeds, the statements added to the
pending ones are those made in the run, each under the guards of the connectives in whose right
operands it was made, and under no other (`Placed`). And every connective without a constant value,
wherever it is met, adds what its left operand adds, followed by nothing or by one guard with all
that its right operand has added as the branch (`ShortCircuits`). -/
theorem right_operands_isolated {e : Expr} {desired : Option GoType}
    (h : (lower e desired).runIn env s = (.ok f, s')) :
    Confined env.inside s s' ∧
      ∀ {n : Nat} {node : Node} {op : BinaryOp} {left right : Expr} {desired : Option GoType}
        {env : Env} {s s' : FunctionState} {f : Fragment},
        op.isLogical → env.constant? s node.id = none →
        (within (n + 1) (.binary node op left right) desired).runIn env s = (.ok f, s') →
        ShortCircuits (within n) env { s with lowered := node.id :: s.lowered }
          (.binary node op left right) op left right f s' := by
  refine ⟨?_, fun hop hconstant hrun => ?_⟩
  -- That everything of a right operand is confined is a law of the lowering; that a connective
  -- short-circuits is read off its own run.
  · have hk := (confining (freePrices env s)).kept_lower (ready_freePrices env s) e desired
    rw [h] at hk
    exact hk.rel rfl
  · exact shortCircuits_of_logical prefix_pending_within
      (runIn_within_connective hop hconstant hrun)

/-- `ready && <-events` -/
def readyAndReceived : Build Expr := do
  let ready ← Build.var "ready" (.basic .bool)
  let events ← Build.var "events" (.chan (.basic .bool))
  let received := Expr.unary (← Build.node (.basic .bool)) .recv events
  return .binary (← Build.node (.basic .bool)) .logicalAnd ready received

/-- The run of a connective as a whole, whose right operand is a receive. -/
theorem right_operands_isolated_readyAndReceived :
    ∃ f s' node left right, (lower (readyAndReceived.run {}).1 none).runIn
        { facts := (readyAndReceived.run {}).2.facts } {} = (.ok f, s') ∧
      (readyAndReceived.run {}).1 = .binary node .logicalAnd left right ∧
      Confined [] {} s' ∧
      ShortCircuits (within (nestingBound (readyAndReceived.run {}).1.size - 1))
        { facts := (readyAndReceived.run {}).2.facts } { lowered := [node.id] }
        (.binary node .logicalAnd left right) .logicalAnd left right f s' := by
  have hok : ((lower (readyAndReceived.run {}).1 none).runIn
      { facts := (readyAndReceived.run {}).2.facts } {}).1.isOk = true := by decide +kernel
  obtain ⟨f, s', hrun⟩ := LowerM.exists_runIn_eq_ok hok
  obtain ⟨hconfined, hconnectives⟩ := right_operands_isolated hrun
  exact ⟨f, s', _, _, _, hrun, rfl, hconfined, hconnectives rfl rfl hrun⟩

end

end GoLua
