import GoLua.Proofs.ResumeSteps
import GoLua.Proofs.ShortCircuit

/-!
# Facts about other nodes

The facts about a compilation unit are tables over all of its nodes, and lowering is given the whole of
them with each expression. What a table holds about other nodes has no bearing on the expression: if two
collections of facts, and of marks, say the same of the nodes of a tree and of the numbers that nobody
has got yet, then a run with the one is the run with the other, in its outcome and in the state that it
leaves (`Request.runIn_withFacts`).

The numbers that are still free have to be in it. Lowering asks about the nodes that it makes as it asks
about any node, and where its own notes are silent the facts of the program answer.

That no other node is asked about is part of how lowering is built (`Built`): what it looks at is a node
of the tree or one that it has made. So it is enough to go through the operations once
(`Local.of_built`).
-/

namespace GoLua

/-! ### Facts that agree -/

/-- What is read with other facts and marks in their place. -/
def Env.withFacts (env : Env) (facts : Facts) (marks : Marks) : Env :=
  { env with facts, marks }

/-- Facts and marks say of a node what is read of it. -/
structure Env.AgreesAt (env : Env) (facts : Facts) (marks : Marks) (id : NodeId) : Prop where
  types : facts.types.get? id = env.facts.types.get? id
  constants : facts.constants.get? id = env.facts.constants.get? id
  definitions : facts.definitions.get? id = env.facts.definitions.get? id
  uses : facts.uses.get? id = env.facts.uses.get? id
  selections : facts.selections.get? id = env.facts.selections.get? id
  marks : marks.contains id = env.marks.contains id

namespace Env.AgreesAt

variable {env : Env} {facts : Facts} {marks : Marks} {id : NodeId}

/-- A right operand is lowered with the same facts. -/
theorem inRightOf (h : env.AgreesAt facts marks id) (connective : NodeId) :
    (env.inRightOf connective).AgreesAt facts marks id :=
  ⟨h.types, h.constants, h.definitions, h.uses, h.selections, h.marks⟩

/-! What is found out about a node is the same. The overlay is asked first, and is not among what is
exchanged. -/

theorem type? (h : env.AgreesAt facts marks id) (s : FunctionState) :
    (env.withFacts facts marks).type? s id = env.type? s id := by
  simp only [Env.type?, withFacts, h.types]

theorem constant? (h : env.AgreesAt facts marks id) (s : FunctionState) :
    (env.withFacts facts marks).constant? s id = env.constant? s id := by
  simp only [Env.constant?, withFacts, h.constants]

theorem binding (h : env.AgreesAt facts marks id) (s : FunctionState) :
    (env.withFacts facts marks).binding s id = env.binding s id := by
  simp only [Env.binding, withFacts, Facts.bindingOf, h.definitions, h.uses]

theorem selection? (h : env.AgreesAt facts marks id) (s : FunctionState) :
    (env.withFacts facts marks).selection? s id = env.selection? s id := by
  simp only [Env.selection?, withFacts, h.selections]

theorem suspends (h : env.AgreesAt facts marks id) (s : FunctionState) :
    (env.withFacts facts marks).suspends s id = env.suspends s id := by
  simp only [Env.suspends, withFacts, h.marks]

end Env.AgreesAt

/-! ### Local computations -/

section

variable {p : Prices} {I : NodeId → Prop} {α β : Type}

/-- **Local computations.** With facts that agree at the nodes of `I` and at those that are new, a
computation does the same. -/
def LowerM.Local (p : Prices) (I : NodeId → Prop) (m : LowerM α) : Prop :=
  ∀ env s, Ready p env s → ∀ facts marks, (∀ id, I id ∨ p.fresh id → env.AgreesAt facts marks id) →
    m.runIn (env.withFacts facts marks) s = m.runIn env s

namespace Local

open Lower LowerM

variable {m : LowerM α}

/-- The second computation starts from one state, because the first one has done the same. -/
theorem bind {v : Nat} {Q : α → Prop} {f : α → LowerM β} (hlaw : (extending p).Holds v m Q)
    (h : m.Local p I) (hf : ∀ a, Q a → (f a).Local p I) : (m >>= f).Local p I := by
  intro env s hs facts marks hagrees
  have hfirst := h env s hs facts marks hagrees
  rcases hm : m.runIn env s with ⟨err | a, s₁⟩
  · rw [hm] at hfirst
    rw [runIn_bind_error hm, runIn_bind_error hfirst]
  · rw [hm] at hfirst
    have hk := hlaw env s hs _ _ hm
    rw [runIn_bind_ok hm, runIn_bind_ok hfirst]
    exact hf a (hk.result a rfl) env s₁ (hs.steady hk.steady) facts marks hagrees

/-- A computation that reads neither facts nor marks. -/
theorem of_blind
    (h : ∀ env s facts marks, m.runIn (env.withFacts facts marks) s = m.runIn env s) :
    m.Local p I :=
  fun env s _ facts marks _ => h env s facts marks

theorem of_pure (a : α) : (pure a : LowerM α).Local p I :=
  of_blind fun _ _ _ _ => rfl

/-- A new node is one of those at which the facts agree. -/
theorem of_withNode {id : NodeId} (hfresh : p.fresh id) (h : m.Local p (withNode I id)) :
    m.Local p I := by
  intro env s hs facts marks hagrees
  refine h env s hs facts marks fun x hx => hagrees x ?_
  rcases hx with (rfl | hx) | hx
  · exact .inr hfresh
  · exact .inl hx
  · exact .inr hx

/-! ### Looking -/

/-- What is found out about a node of `I`. -/
theorem of_view {id : NodeId} {f : Env → FunctionState → α} (h : I id)
    (hf : ∀ {env : Env} {facts marks}, env.AgreesAt facts marks id → ∀ s,
      f (env.withFacts facts marks) s = f env s) : (view f).Local p I := by
  intro env s _ facts marks hagrees
  rw [runIn_view, runIn_view, hf (hagrees id (.inl h)) s]

theorem typeOf {e : Expr} (h : I e.id) : (Lower.typeOf e).Local p I := by
  intro env s _ facts marks hagrees
  rw [runIn_typeOf, runIn_typeOf, (hagrees e.id (.inl h)).type? s]

/-- A call that suspends asks for its own mark only. -/
theorem placeCall {e : Expr} (h : I e.id) (sig : Signature) (call : String) :
    (Lower.placeCall e sig call).Local p I := by
  intro env s _ facts marks hagrees
  rw [RunLaw.runIn_placeCall, RunLaw.runIn_placeCall, (hagrees e.id (.inl h)).suspends s]
  rfl

/-! ### Connectives and sequences -/

/-- The two operands ask for the facts of their own nodes. -/
theorem logical {v : Nat} {self : Lowering} {left right : Expr}
    (hlaw : (extending p).Holds v (self left none) fun _ => True)
    (hleft : (self left none).Local p I) (hright : (self right none).Local p I) (h : I right.id)
    (e : Expr) (op : BinaryOp) : (Lower.logical self e op left right).Local p I := by
  intro env s hs facts marks hagrees
  have hl := hleft env s hs facts marks hagrees
  rcases hrunl : (self left none).runIn env s with ⟨err | condition, s₁⟩
  · rw [hrunl] at hl
    rw [runIn_logical_left_error hrunl, runIn_logical_left_error hl]
  rw [hrunl] at hl
  have hs₁ := (hs.steady (hlaw env s hs _ _ hrunl).steady).inRightOf e.id
  -- Inside of the connective other facts are exchanged for the same ones.
  have hr : (self right none).runIn ((env.withFacts facts marks).inRightOf e.id) s₁ =
      (self right none).runIn (env.inRightOf e.id) s₁ :=
    hright _ s₁ hs₁ facts marks fun id hid => (hagrees id hid).inRightOf e.id
  rcases hrunr : (self right none).runIn (env.inRightOf e.id) s₁ with ⟨err | value, s₂⟩
  · rw [hrunr] at hr
    rw [runIn_logical_right_error hrunl hrunr, runIn_logical_right_error hl hr]
  · rw [hrunr] at hr
    rw [runIn_logical_ok hrunl hrunr, runIn_logical_ok hl hr,
      (hagrees right.id (.inl h)).suspends s₂]
    rfl

theorem moveToTemporaries (hint : String) (texts : List String) (env : Env) (s : FunctionState)
    (facts : Facts) (marks : Marks) :
    (Lower.moveToTemporaries hint texts).runIn (env.withFacts facts marks) s =
      (Lower.moveToTemporaries hint texts).runIn env s := by
  -- By induction on the texts, which ask for no facts.
  induction texts generalizing s with
  | nil => rfl
  | cons text texts ih =>
    unfold Lower.moveToTemporaries
    split
    · rw [runIn_bind, runIn_bind, ih]
      rfl
    · rw [runIn_bind_ok (runIn_keepInTemporary (env.withFacts facts marks) s hint text),
        runIn_bind_ok (runIn_keepInTemporary env s hint text), runIn_bind, runIn_bind, ← ih]
      rfl

theorem move (hint : String) (parts : Parts) (env : Env) (s : FunctionState) (facts : Facts)
    (marks : Marks) :
    (parts.move hint).runIn (env.withFacts facts marks) s = (parts.move hint).runIn env s := by
  rw [Parts.move, runIn_bind, runIn_bind, moveToTemporaries]
  rfl

/-- A part of a sequence leaves as much with other facts. -/
theorem add {m : LowerM String} (h : m.Local p I) (hint : String) (parts : Parts) :
    (parts.add hint m).Local p I := by
  intro env s hs facts marks hagrees
  have hpart := h env s hs facts marks hagrees
  rcases hm : m.runIn env s with ⟨err | text, s₁⟩
  · rw [hm] at hpart
    rw [runIn_add_error hm, runIn_add_error hpart]
  rw [hm] at hpart
  by_cases hcount : s₁.pending.length = s.pending.length
  · rw [runIn_add_quiet hm hcount, runIn_add_quiet hpart hcount]
  · obtain ⟨parts', s₂, hmove⟩ := exists_runIn_move env (s₁.splitAt s.pending.length).2 hint parts
    rw [runIn_add_moved hm hcount hmove,
      runIn_add_moved hpart hcount ((move hint parts env _ facts marks).trans hmove)]

/-! ### Lowering -/

/-- Where parts are lowered locally, all that is put together from them is local. -/
theorem of_built {S : Setting} {I : NodeId → Prop} {w : Nat} {Q : α → Prop}
    (hlaw : ∀ e desired,
      (extending S.prices).Holds (S.prices.price e) (S.self e desired) fun _ => True)
    (hself : ∀ {J : NodeId → Prop} {e}, (e.All fun c => J c.id) → ∀ desired,
      (S.self e desired).Local S.prices J) (h : Built S I w m Q) : m.Local S.prices I := by
  -- By induction on how the lowering is built. Facts are asked for by four primitives, each at a
  -- known node; all others are blind to them.
  induction h with
  | pure h => exact of_pure _
  | bind first _ ih₁ ih₂ => exact bind (RunLaw.holds_of_built hlaw first) ih₁ ih₂
  | weaken _ _ _ ih => exact ih
  | fail _ => exact of_blind fun _ _ _ _ => rfl
  | typeOf h => exact typeOf h
  | constantOf h => exact of_view h fun hagrees s => hagrees.constant? s
  | boundObject? h => exact of_view h fun hagrees s => congrArg Binding.object? (hagrees.binding s)
  | selectionOf h => exact of_view h fun hagrees s => hagrees.selection? s
  | config f => exact of_blind fun _ _ _ _ => rfl
  | bodySource => exact of_blind fun _ _ _ _ => rfl
  | newLocal hint => exact of_blind fun _ _ _ _ => rfl
  | accessorBox key _ => exact of_blind fun _ _ _ _ => rfl
  | reportError message span => exact of_blind fun _ _ _ _ => rfl
  | synthesizeNode type span _ ih =>
    -- The node is new, so other facts say nothing about it either.
    exact bind (RunLaw.holds_synthesizeNode type span) (of_blind fun _ _ _ _ => rfl)
      fun node hfresh => of_withNode hfresh (ih node hfresh)
  | synthesizeUse name obj type span _ ih =>
    refine bind (RunLaw.holds_synthesizeUse name obj type span) (of_blind fun _ _ _ _ => rfl)
      fun e he => ?_
    obtain ⟨node, hfresh, rfl⟩ := he
    exact of_withNode hfresh (ih node hfresh)
  | synthesizeSelector type span selection _ ih =>
    have hnode : (extending S.prices).Holds 0 _ fun node : Node => S.prices.fresh node.id :=
      RunLaw.holds_synthesizeSelector (k := pure) type span selection
        fun node hfresh => RunLaw.holds_pure hfresh
    have hlocal := bind hnode (of_blind fun _ _ _ _ => rfl)
      fun node hfresh => of_withNode hfresh (ih node hfresh)
    simpa only [bind_assoc, pure_bind] using hlocal
  | synthesizeSuspending type span _ ih =>
    have hnode : (extending S.prices).Holds 0 _ fun node : Node => S.prices.fresh node.id :=
      RunLaw.holds_synthesizeSuspending (k := pure) type span
        fun node hfresh => RunLaw.holds_pure hfresh
    have hlocal := bind hnode (of_blind fun _ _ _ _ => rfl)
      fun node hfresh => of_withNode hfresh (ih node hfresh)
    simpa only [bind_assoc, pure_bind] using hlocal
  | recordLowered e =>
    exact of_blind fun env s _ _ => by rw [runIn_recordLowered, runIn_recordLowered]
  | requestBody body sig _ asked _ ih₁ ih₂ =>
    refine bind RunLaw.holds_source (of_blind fun _ _ _ _ => rfl) fun source? _ => ?_
    cases source? with
    | none => exact ih₁
    | some source =>
      rw [asked]
      refine bind (RunLaw.holds_requestBody source body sig) (of_blind fun env s _ _ => ?_)
        fun function _ => ih₂ function
      rw [runIn_requestBody, runIn_requestBody]
  | lower h desired => exact hself h.known desired
  | keepInTemporary hint value _ => exact of_blind fun _ _ _ _ => rfl
  | assigned write target value _ => exact of_blind fun _ _ _ _ => rfl
  | placeCall h sig call => exact placeCall h sig call
  | logical _ hleft hright _ =>
    exact logical (hlaw _ none) (hself hleft none) (hself hright none) hright.here _ _
  | add _ parts _ ih => exact add ih _ parts

/-- Lowering is local to the nodes of a tree, with any number of lowerings inside one another. -/
theorem within (p : Prices) (n : Nat) {I : NodeId → Prop} {e : Expr} (h : e.All fun c => I c.id)
    (desired : Option GoType) : (Lower.within n e desired).Local p I := by
  induction n generalizing I e desired with
  | zero => exact of_blind fun _ _ _ _ => rfl
  | succ n ih =>
    have hfits : e.Fits ⟨Lower.within n, p, fun _ => True⟩ I :=
      ⟨h, e.outer_of_forall fun _ => trivial⟩
    exact of_built (S := ⟨Lower.within n, p, fun _ => True⟩)
      (fun e desired => (extending p).holds_within n e desired) (fun h desired => ih h desired)
      (Built.expression hfits desired)

end Local

end

/-! ### Requests -/

/-- **Locality.** Facts and marks that agree at the nodes of a tree, and at the numbers that have not
been handed out yet, give the same outcome and leave the same state, whatever they hold about all other
nodes. -/
theorem Request.runIn_withFacts {env : Env} {s : FunctionState} {request : Request} {facts : Facts}
    {marks : Marks} (htree : request.All fun c => env.AgreesAt facts marks c.id)
    (hnew : ∀ id, s.nextSynthetic ≤ id → env.AgreesAt facts marks id) :
    request.run.runIn (env.withFacts facts marks) s = request.run.runIn env s := by
  obtain ⟨w, hbuilt⟩ := request.built_of_known (freePrices env s) htree
  have hlocal := Local.of_built ((extending _).holds_within request.depth)
    (fun hknown desired => Local.within _ request.depth hknown desired) hbuilt
  exact hlocal env s (ready_freePrices env s) facts marks fun id hid =>
    hid.elim (fun h => h) (hnew id)

/-- `ready && <-events` among facts about a node that is not part of it: that this node has a value, a type
and a mark leaves the code of the connective as it is. -/
theorem Request.runIn_withFacts_readyAndReceived :
    let env : Env := { facts := (readyAndReceived.run {}).2.facts }
    let request := Request.expression (readyAndReceived.run {}).1 none
    let facts : Facts := { env.facts with
      types := env.facts.types.insert 4 (.basic .string)
      constants := env.facts.constants.insert 4 (.string "beside") }
    request.run.runIn (env.withFacts facts (env.marks.mark 4)) {} = request.run.runIn env {} := by
  intro env request facts
  have hother (id : NodeId) (hid : 4 ≠ id) : env.AgreesAt facts (env.marks.mark 4) id := by
    refine ⟨NodeTable.get?_insert_of_ne _ hid _, NodeTable.get?_insert_of_ne _ hid _, rfl, rfl, rfl, ?_⟩
    rw [Marks.contains_mark, beq_false_of_ne hid, Bool.false_or]
  refine runIn_withFacts ?_ fun id hid => hother id ?_
  · -- The nodes of the tree have the numbers 0 to 3.
    refine .intro (hother 3 (by decide)) fun c hc => ?_
    rcases List.mem_cons.mp hc with rfl | hc
    · exact .intro (hother 0 (by decide)) (List.forall_mem_nil _)
    obtain rfl := List.mem_singleton.mp hc
    refine .intro (hother 2 (by decide)) fun c hc => ?_
    obtain rfl := List.mem_singleton.mp hc
    exact .intro (hother 1 (by decide)) (List.forall_mem_nil _)
  · have hfirst : 4 < firstSyntheticId := by decide
    exact Nat.ne_of_lt (Nat.lt_of_lt_of_le hfirst hid)

end GoLua
