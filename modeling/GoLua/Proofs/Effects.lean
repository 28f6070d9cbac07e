import GoLua.Proofs.Law

/-!
# Effects are emitted at most once

Lowering runs nothing twice that the program runs once: of a suspending call it leaves one statement
at most, of a function literal it asks for one body at most, and no node of the program is lowered by
its form more often than it occurs in the tree.

What is counted is a weighted sum over the pending statements, the nodes lowered so far and the
bodies asked for (`Prices.spent`). That a run adds at most what its expression costs is a law
(`spending`), so one proof serves all three bounds; they differ in the prices.
-/

namespace GoLua

/-! ### Counting -/

mutual

/-- The number of suspending calls in a statement, branches included. -/
def Statement.suspensions : Statement → Nat
  | .assign _ _ => 0
  | .callAssign _ _ _ => 1
  | .guard _ _ _ body _ => suspensionsOf body
termination_by structural s => s

/-- The number of suspending calls in several statements. -/
def suspensionsOf : List Statement → Nat
  | [] => 0
  | s :: ss => s.suspensions + suspensionsOf ss
termination_by structural ss => ss

end

theorem suspensionsOf_append (ss ts : List Statement) :
    suspensionsOf (ss ++ ts) = suspensionsOf ss + suspensionsOf ts := by
  induction ss with
  | nil => simp [suspensionsOf]
  | cons s ss ih => simp [suspensionsOf, ih, Nat.add_assoc]

/-- Cutting a list of statements loses no calls. -/
theorem suspensionsOf_take_add_drop (mark : Nat) (ss : List Statement) :
    suspensionsOf (ss.take mark) + suspensionsOf (ss.drop mark) = suspensionsOf ss := by
  rw [← suspensionsOf_append, List.take_append_drop]

namespace Expr

/-- Whether a node stands for something that may suspend: a receive, or a marked call. -/
def maySuspend (marked : NodeId → Bool) : Expr → Bool
  | .unary _ .recv _ => true
  | .call n _ _ _ => marked n.id
  | _ => false

/-- Whether a node is a function literal with a body of a kind. -/
def isLiteralWith (q : Nat → Bool) : Expr → Bool
  | .funcLit _ body => q body
  | _ => false

end Expr

/-! ### Spending -/

/-- What the effects of a state have cost, if each suspending call costs `c`. -/
def Prices.spent (p : Prices) (c : Nat) (s : FunctionState) : Nat :=
  c * suspensionsOf s.pending + sumOf p.visit s.lowered + sumOf (fun r => p.body r.1) s.bodyRequests

section

variable {p : Prices} {c : Nat} {s s' : FunctionState}

/-- A statement costs its calls. -/
theorem Prices.spent_leave (m : Made) :
    p.spent c (s.leave m) = p.spent c s + c * m.statement.suspensions := by
  simp only [Prices.spent, FunctionState.leave, FunctionState.push, suspensionsOf_append,
    suspensionsOf, Nat.mul_add]
  omega

/-- Taking statements out and putting them back in another place costs nothing. -/
theorem Prices.spent_splitAt_add (mark : Nat) :
    p.spent c (s.splitAt mark).2 + c * suspensionsOf (s.splitAt mark).1 = p.spent c s := by
  have hcut := suspensionsOf_take_add_drop mark s.pending
  simp only [Prices.spent, FunctionState.splitAt, ← hcut, Nat.mul_add]
  omega

/-- What is put back is counted with what is there. -/
theorem Prices.spent_putBack (stmts : List Statement) :
    p.spent c (s.putBack stmts) = p.spent c s + c * suspensionsOf stmts := by
  simp only [Prices.spent, FunctionState.putBack, suspensionsOf_append, Nat.mul_add]
  omega

end

/-- A run spends at most `w`, if each suspending call costs at most what the calls cost that are
marked in the end. -/
structure Spends (p : Prices) (c : Nat) (env : Env) (w : Nat) (s s' : FunctionState) : Prop where
  marks : ∀ id, env.suspends s id → env.suspends s' id
  spent : (∀ id, env.suspends s' id → c ≤ p.suspend id) → p.spent c s' ≤ p.spent c s + w

namespace Spends

variable {p : Prices} {c : Nat} {env : Env} {v w : Nat} {s s₁ s' : FunctionState}

/-- Spending adds up. -/
theorem trans (h : Spends p c env v s s₁) (h' : Spends p c env w s₁ s') :
    Spends p c env (v + w) s s' := by
  refine ⟨fun id hid => h'.marks id (h.marks id hid), fun hc => ?_⟩
  -- What costs enough in the end costs enough in between, where fewer calls are marked.
  have hfirst := h.spent fun id hid => hc id (h'.marks id hid)
  calc p.spent c s' ≤ p.spent c s₁ + w := h'.spent hc
    _ ≤ p.spent c s + v + w := Nat.add_le_add_right hfirst w
    _ = p.spent c s + (v + w) := Nat.add_assoc _ _ _

theorem spend (h : Spends p c env v s s') (hw : v ≤ w) : Spends p c env w s s' :=
  ⟨h.marks, fun hc => Nat.le_trans (h.spent hc) (Nat.add_le_add_left hw _)⟩

/-- A step that costs nothing. -/
theorem of_spent (hmarks : ∀ id, env.suspends s id → env.suspends s' id)
    (hspent : p.spent c s' = p.spent c s) : Spends p c env 0 s s' :=
  ⟨hmarks, fun _ => Nat.le_of_eq hspent⟩

theorem newLocal (hint : String) : Spends p c env 0 s (FunctionState.newLocal s hint).2 :=
  of_spent (fun _ h => h) rfl

theorem accessorBox (key : String) : Spends p c env 0 s (FunctionState.accessorBox s key).2 := by
  unfold FunctionState.accessorBox
  split
  · exact of_spent (fun _ h => h) rfl
  · exact of_spent (fun _ h => h) rfl

end Spends

/-- **Spending.** Every step of lowering costs at most its price. -/
def spending (p : Prices) (c : Nat) : RunLaw p where
  rel _ env w s s' := Spends p c env w s s'
  stay := .of_spent (fun _ h => h) rfl
  spend h hw := h.spend hw
  trans h h' := h.trans h'
  newLocal hint := .newLocal hint
  accessorBox key _ := .accessorBox key
  reportError _ _ := .of_spent (fun _ h => h) rfl
  newNode _ _ := .of_spent (fun _ h => h) rfl
  use _ _ _ _ := .of_spent (fun _ h => h) rfl
  select _ _ _ _ := .of_spent (fun _ h => h) rfl
  mark {env s} id _ _ := by
    refine .of_spent (fun x hx => ?_) rfl
    change (env.marks.contains x || (s.overlay.suspending.mark id).contains x) = true
    rw [Marks.contains_mark, Bool.or_left_comm, show (env.marks.contains x ||
      s.overlay.suspending.contains x) = true from hx, Bool.or_true]
  visit {env s} id := ⟨fun _ h => h, fun _ => by simp only [Prices.spent, sumOf_cons]; omega⟩
  request {_ env s} body sig :=
    ⟨fun _ h => h, fun _ => by simp only [Prices.spent, sumOf_cons]; omega⟩
  keep {env s} hint value _ := ⟨fun _ h => h, fun _ => by
    rw [Prices.spent_leave]
    exact Nat.le_refl _⟩
  assign {env s} write target value _ := ⟨fun _ h => h, fun _ => by
    rw [Prices.spent_leave]
    exact Nat.le_refl _⟩
  callStatement {env s} id call hid := ⟨fun _ h => h, fun hc => by
    rw [Prices.spent_leave]
    exact Nat.add_le_add_left (Nat.le_trans (Nat.le_of_eq (Nat.mul_one c)) (hc id hid)) _⟩
  callValue {env s} id call hid := ⟨fun _ h => h, fun hc => by
    rw [Prices.spent_leave]
    exact Nat.add_le_add_left (Nat.le_trans (Nat.le_of_eq (Nat.mul_one c)) (hc id hid)) _⟩
  native _ h h' _ := h.trans ⟨h'.marks, h'.spent⟩
  guard {env v w s s₁ s₂} id op condition value h h' := by
    have hboth : Spends p c env (v + w) s s₂ := h.trans ⟨h'.marks, h'.spent⟩
    refine hboth.trans (w := 0) (.of_spent (fun _ h => h) ?_)
    -- The calls of the branch are those that have been taken out.
    rw [← Prices.spent_splitAt_add (s := s₂) s₁.pending.length]
    exact Prices.spent_leave _
  stuck _ h := ⟨h.marks, h.spent⟩
  insert {env w s s₁ s₂} h h' := by
    refine ⟨fun id hid => h'.marks id (h.marks id hid), fun hc => ?_⟩
    have hpart := h.spent fun id hid => hc id (h'.marks id hid)
    have hmoves := h'.spent hc
    rw [Prices.spent_putBack]
    -- The moves go where the statements of the part were cut off, which come back behind them.
    calc p.spent c s₂ + c * suspensionsOf (s₁.splitAt s.pending.length).1
        ≤ p.spent c (s₁.splitAt s.pending.length).2 +
            c * suspensionsOf (s₁.splitAt s.pending.length).1 := Nat.add_le_add_right hmoves _
      _ = p.spent c s₁ := Prices.spent_splitAt_add _
      _ ≤ p.spent c s + w := hpart

/-! ### Prices -/

section

variable (env : Env) (s : FunctionState)

/-- Only suspending calls cost anything: receives, and the calls that are marked. -/
def suspensionPrices (marked : NodeId → Bool) : Prices :=
  { freePrices env s with
    suspend := fun id => (marked id).toNat
    receive := 1
    suspend_fresh := fun id _ => Bool.toNat_le (marked id) }

/-- Only the bodies of some function literals cost anything. -/
def bodyPrices (q : Nat → Bool) : Prices :=
  { freePrices env s with body := fun b => (q b).toNat }

/-- Only lowering the node `x` by its form costs anything, which is not a new one. -/
def visitPrices {x : NodeId} (hx : x < s.nextSynthetic) : Prices :=
  { freePrices env s with
    visit := fun id => (id == x).toNat
    visit_fresh := fun id hid => by
      have hne : (id == x) = false := beq_false_of_ne (Nat.ne_of_gt (Nat.lt_of_lt_of_le hx hid))
      rw [hne]
      rfl }

variable (e : Expr)

/-- The price of a node is whether it may suspend. -/
theorem node_suspensionPrices (marked : NodeId → Bool) :
    (suspensionPrices env s marked).node e = (e.maySuspend marked).toNat := by
  have hform : (suspensionPrices env s marked).form e = 0 := ite_self 0
  rw [Prices.node, hform, Nat.zero_add]
  cases e with
  | unary n op operand => cases op <;> rfl
  | _ => rfl

/-- Or whether it is a literal of the body in question. -/
theorem node_bodyPrices (q : Nat → Bool) :
    (bodyPrices env s q).node e = (e.isLiteralWith q).toNat := by
  have hform : (bodyPrices env s q).form e = 0 := ite_self 0
  rw [Prices.node, hform, Nat.zero_add]
  cases e with
  | unary n op operand => cases op <;> rfl
  | _ => rfl

theorem node_visitPrices {x : NodeId} (hx : x < s.nextSynthetic) :
    (visitPrices env s hx).node e = (e.id == x && !e.unparen.isIdent).toNat := by
  have heffect : (visitPrices env s hx).effect e = 0 := by
    cases e with
    | unary n op operand => cases op <;> rfl
    | _ => rfl
  rw [Prices.node, heffect, Nat.add_zero, Prices.form]
  cases e.unparen.isIdent
  · rw [Bool.not_false, Bool.and_true]
    rfl
  · rw [Bool.not_true, Bool.and_false]
    rfl

end

/-! ### Bounds -/

section

variable (e : Expr) (desired : Option GoType) (env : Env) (s : FunctionState)

/-- A run of lowering spends no more than every node of the tree may cost. -/
theorem spent_lower_le {p : Prices} {c : Nat} {test : Expr → Bool} (hs : Ready p env s)
    (hc : ∀ id, env.suspends ((lower e desired).runIn env s).2 id → c ≤ p.suspend id)
    (hnode : ∀ e, p.node e = (test e).toNat) :
    p.spent c ((lower e desired).runIn env s).2 ≤ p.spent c s + e.count test := by
  have hk := (spending p c).kept_lower hs e desired
  have hfull : p.full e = e.count test := Expr.total_congr (e.all_of_forall hnode)
  calc p.spent c ((lower e desired).runIn env s).2
      ≤ p.spent c s + p.price e := hk.rel.spent hc
    _ ≤ p.spent c s + p.full e := Nat.add_le_add_left (p.price_le_full e) _
    _ = p.spent c s + e.count test := by rw [hfull]

/-- Of each receive and each marked call, one statement is left at most. -/
theorem suspensionsOf_lower_le :
    suspensionsOf ((lower e desired).runIn env s).2.pending ≤ suspensionsOf s.pending +
      e.count (Expr.maySuspend (env.suspends ((lower e desired).runIn env s).2)) := by
  have hspent := spent_lower_le e desired env s (c := 1)
    (p := suspensionPrices env s (env.suspends ((lower e desired).runIn env s).2))
    ⟨fun _ => rfl, fun _ h => h⟩ (fun id hid => by simp [suspensionPrices, hid])
    fun e => node_suspensionPrices env s e _
  have hzero {α : Type} (as : List α) : sumOf (fun _ => 0) as = 0 := sumOf_eq_zero fun _ _ => rfl
  simpa [Prices.spent, suspensionPrices, freePrices, hzero] using hspent

/-- Of each function literal, one body is asked for at most. -/
theorem bodyRequests_lower_le (q : Nat → Bool) :
    ((lower e desired).runIn env s).2.bodyRequests.countP (fun r => q r.1) ≤
      s.bodyRequests.countP (fun r => q r.1) + e.count (Expr.isLiteralWith q) := by
  have hspent := spent_lower_le e desired env s (c := 0) (p := bodyPrices env s q)
    ⟨fun _ => rfl, fun _ h => h⟩ (fun _ _ => Nat.zero_le _) fun e => node_bodyPrices env s e q
  have hzero {α : Type} (as : List α) : sumOf (fun _ => 0) as = 0 := sumOf_eq_zero fun _ _ => rfl
  simpa [Prices.spent, bodyPrices, freePrices, hzero, countP_eq_sumOf] using hspent

/-- A node of the program is lowered by its form as often as it occurs, at most. -/
theorem lowered_lower_le {x : NodeId} (hx : x < s.nextSynthetic) :
    ((lower e desired).runIn env s).2.lowered.count x ≤
      s.lowered.count x + e.count fun c => c.id == x && !c.unparen.isIdent := by
  have hspent := spent_lower_le e desired env s (c := 0) (p := visitPrices env s hx)
    ⟨fun _ => rfl, fun _ h => h⟩ (fun _ _ => Nat.zero_le _) fun e => node_visitPrices env s e hx
  have hzero {α : Type} (as : List α) : sumOf (fun _ => 0) as = 0 := sumOf_eq_zero fun _ _ => rfl
  simpa [Prices.spent, visitPrices, freePrices, hzero, List.count, countP_eq_sumOf] using hspent

/-- Lowering marks no node that had a number before. -/
theorem suspends_lower {id : NodeId} (hid : id < s.nextSynthetic) :
    env.suspends ((lower e desired).runIn env s).2 id = env.suspends s id := by
  have hk := (extending (freePrices env s)).kept_lower (ready_freePrices env s) e desired
  exact congrArg (env.marks.contains id || ·) (hk.steady.unmarked id (Nat.not_le_of_lt hid))

/-- What the run of an expression has added to a state, each effect at most as often as its cause
occurs in the tree. -/
structure AddsOnce (env : Env) (e : Expr) (s s' : FunctionState) (statements : List Statement)
    (bodies : List (Nat × Signature)) (nodes : List NodeId) : Prop where
  pending : s'.pending = s.pending ++ statements
  bodyRequests : s'.bodyRequests = bodies ++ s.bodyRequests
  lowered : s'.lowered = nodes ++ s.lowered
  /-- Receives and calls with a mark suspend. -/
  suspensions : suspensionsOf statements ≤ e.count (Expr.maySuspend (env.suspends s'))
  /-- Only nodes that had no number before can have got a mark. -/
  marks : ∀ id < s.nextSynthetic, env.suspends s' id = env.suspends s id
  /-- For a tree of older nodes the marks are those from before. -/
  suspensions_old : e.All (fun c => c.id < s.nextSynthetic) →
    suspensionsOf statements ≤ e.count (Expr.maySuspend (env.suspends s))
  /-- Bodies of any kind are asked for as often as there are literals with such bodies. -/
  literals : ∀ q, bodies.countP (fun r => q r.1) ≤ e.count (Expr.isLiteralWith q)
  /-- A node of the program is lowered as often as it occurs as something else than a name. -/
  once : ∀ x < s.nextSynthetic, nodes.count x ≤ e.count fun c => c.id == x && !c.unparen.isIdent

/-- **Effects at most once.** A run of lowering, successful or not, adds no more suspending calls
than there are receives and marked calls in the tree, no more requests for bodies than function
literals, and lowers every node of the program at most as often as it occurs there. -/
theorem effects_at_most_once :
    ∃ statements bodies nodes,
      AddsOnce env e s ((lower e desired).runIn env s).2 statements bodies nodes := by
  -- Each of the three counts is bounded by its own prices; the lists themselves grow at the front
  -- or the back.
  have hk := (extending (freePrices env s)).kept_lower (ready_freePrices env s) e desired
  obtain ⟨statements, hstatements⟩ := hk.rel.pending
  obtain ⟨bodies, hbodies⟩ := hk.rel.bodyRequests
  obtain ⟨nodes, hnodes⟩ := hk.rel.lowered
  have hsuspensions : suspensionsOf statements ≤
      e.count (Expr.maySuspend (env.suspends ((lower e desired).runIn env s).2)) := by
    have hle := suspensionsOf_lower_le e desired env s
    rw [← hstatements, suspensionsOf_append] at hle
    exact Nat.le_of_add_le_add_left hle
  refine ⟨statements, bodies, nodes, hstatements.symm, hbodies.symm, hnodes.symm, hsuspensions,
    fun id hid => suspends_lower e desired env s hid, fun hold => ?_, fun q => ?_, fun x hx => ?_⟩
  · -- The tree has no node that was marked on the way, so it may suspend where it might before.
    have hsame : e.count (Expr.maySuspend (env.suspends ((lower e desired).runIn env s).2))
        = e.count (Expr.maySuspend (env.suspends s)) := by
      refine Expr.total_congr (hold.mono fun c hc => ?_)
      cases c with
      | call n func args ellipsis =>
        exact congrArg Bool.toNat (suspends_lower e desired env s hc)
      | unary n op operand => cases op <;> rfl
      | _ => rfl
    exact hsame ▸ hsuspensions
  · have hle := bodyRequests_lower_le e desired env s q
    rw [← hbodies, List.countP_append] at hle
    omega
  · have hle := lowered_lower_le e desired env s hx
    rw [← hnodes, List.count_append] at hle
    omega

end

end GoLua
