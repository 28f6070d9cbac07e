import GoLua.Proofs.ResumeSteps
import GoLua.Proofs.ShortCircuit

/-!
# No type is missing

A rule that finds no type at a node fails, and nothing in the rules says that it does not come to that.
It does not, if all nodes of a tree have types: rules look at nodes of the tree and at nodes that they
have made, and a node is made with its type (`Request.types_found`). The only way to such a failure is
the source of function bodies, which may answer with any (`Env.Refuses`).

Trees that are built by hand have types at all nodes, because the builder records one with each
(`TreeBuilder.Makes.typed`).
-/

namespace GoLua

/-! ### Types -/

/-- A node whose type is known. -/
def Env.HasType (env : Env) (s : FunctionState) (e : Expr) : Prop :=
  (env.type? s e.id).isSome

/-- The types of the nodes in `I` are known. -/
def Env.Types (env : Env) (s : FunctionState) (I : NodeId → Prop) : Prop :=
  ∀ id, I id → (env.type? s id).isSome

/-- The source of function bodies answers some requests with a failure. -/
def Env.Refuses (env : Env) (e : CompileError) : Prop :=
  ∃ source requests, env.bodies = some source ∧ source requests = .error e

/-- **Keeping types.** A node that has a type in the overlay has one from then on. -/
def typing (p : Prices) : RunLaw p where
  rel _ _ _ s s' := ∀ id, (s.overlay.types.get? id).isSome → (s'.overlay.types.get? id).isSome
  stay _ h := h
  spend h _ := h
  trans h h' id hid := h' id (h id hid)
  newLocal _ _ h := h
  accessorBox {_ s} key _ _ h := by
    unfold FunctionState.accessorBox
    split <;> exact h
  reportError _ _ _ h := h
  newNode {_ s} type _ id h := by
    change ((s.overlay.types.insert s.nextSynthetic type).get? id).isSome = true
    rw [NodeTable.get?_insert]
    split
    · rfl
    · exact h
  use _ _ _ _ _ h := h
  select _ _ _ _ _ h := h
  mark _ _ _ _ h := h
  visit _ _ h := h
  request _ _ _ h := h
  keep _ _ _ _ h := h
  assign _ _ _ _ _ h := h
  callStatement _ _ _ _ h := h
  callValue _ _ _ _ h := h
  native _ h h' _ id hid := h' id (h id hid)
  guard _ _ _ _ h h' id hid := h' id (h id hid)
  stuck _ h := h
  insert h h' id hid := h' id (h id hid)

section

variable {p : Prices} {env : Env} {s s' : FunctionState} {I : NodeId → Prop} {α β : Type}

/-- What keeps types in the overlay keeps them altogether. -/
theorem Env.Types.mono (h : env.Types s I)
    (hkeep : ∀ id, (s.overlay.types.get? id).isSome → (s'.overlay.types.get? id).isSome) :
    env.Types s' I := by
  intro id hid
  have hsome := h id hid
  rw [Env.type?, Option.isSome_or, Bool.or_eq_true] at hsome ⊢
  exact hsome.imp_left (hkeep id)

/-- A node that has just been made has a type as well. -/
theorem Env.Types.newNode (h : env.Types s I) (type : GoType) :
    env.Types (s.newSyntheticId.2.modifyOverlay fun o =>
      { o with types := o.types.insert s.nextSynthetic type }) (withNode I s.nextSynthetic) := by
  intro id hid
  change (((s.overlay.types.insert s.nextSynthetic type).get? id).or _).isSome = true
  rw [NodeTable.get?_insert]
  split
  · rfl
  · next hne => exact h id (hid.resolve_left fun heq => hne heq.symm)

/-! ### Computations that find types -/

/-- Where the nodes of `I` have types, a computation does not fail for want of a type. -/
def LowerM.FindsTypes (p : Prices) (I : NodeId → Prop) (m : LowerM α) : Prop :=
  ∀ env s, Ready p env s → env.Types s I → ∀ id l,
    (m.runIn env s).1 = .error (.gap (.missingType id l)) → env.Refuses (.gap (.missingType id l))

namespace FindsTypes

open Lower LowerM

variable {m : LowerM α}

/-- The second computation starts where no types are lost. -/
theorem bind {v : Nat} {Q : α → Prop} {f : α → LowerM β} (hlaw : (typing p).Holds v m Q)
    (h : m.FindsTypes p I) (hf : ∀ a, Q a → (f a).FindsTypes p I) : (m >>= f).FindsTypes p I := by
  intro env s hs htypes id l hfail
  rcases hm : m.runIn env s with ⟨err | a, s₁⟩
  · rw [runIn_bind_error hm] at hfail
    exact h env s hs htypes id l (by rw [hm]; exact congrArg Except.error (Except.error.inj hfail))
  · rw [runIn_bind_ok hm] at hfail
    have hk := hlaw env s hs _ _ hm
    exact hf a (hk.result a rfl) env s₁ (hs.steady hk.steady) (htypes.mono hk.rel) id l hfail

/-- A computation that fails for no other reason than some it can name. -/
theorem of_failures (h : ∀ env s e, (m.runIn env s).1 = .error e → ∀ id l, e ≠ .gap (.missingType id l)) :
    m.FindsTypes p I :=
  fun env s _ _ id l hfail => absurd rfl (h env s _ hfail id l)

/-- A computation that does not fail. -/
theorem of_ok {a : Env → FunctionState → α} {step : Env → FunctionState → FunctionState}
    (hrun : ∀ env s, m.runIn env s = (.ok (a env s), step env s)) : m.FindsTypes p I :=
  of_failures fun env s e he => by rw [hrun] at he; cases he

theorem of_pure (a : α) : (pure a : LowerM α).FindsTypes p I :=
  of_ok (runIn_pure · · a)

/-- The type of a known node is found. -/
theorem typeOf {e : Expr} (h : I e.id) : (Lower.typeOf e).FindsTypes p I := by
  intro env s _ htypes id l hfail
  obtain ⟨type, htype⟩ := Option.isSome_iff_exists.mp (htypes e.id h)
  rw [runIn_typeOf, htype] at hfail
  cases hfail

/-- A node is made with its type. -/
theorem synthesizeNode {type : GoType} {span : Span} {k : Node → LowerM α}
    (h : ∀ node : Node, p.fresh node.id → (k node).FindsTypes p (withNode I node.id)) :
    (Lower.synthesizeNode type span >>= k).FindsTypes p I := by
  intro env s hs htypes id l hfail
  have hrun := runIn_synthesizeNode env s type span
  have hk : (typing p).Kept env 0 s _ _ fun node : Node => p.fresh node.id :=
    RunLaw.holds_synthesizeNode type span env s hs _ _ hrun
  rw [runIn_bind_ok hrun] at hfail
  exact h _ (hk.result _ rfl) env _ (hs.steady hk.steady) (htypes.newNode type) id l hfail

/-- What is noted down about a new node besides takes nothing away. -/
theorem noted {note : LowerM Unit} {k : LowerM α} {step : FunctionState → FunctionState}
    (hrun : ∀ env s, note.runIn env s = (.ok (), step s))
    (hready : ∀ {env s}, Ready p env s → Ready p env (step s))
    (htypes : ∀ s, (step s).overlay.types = s.overlay.types) (h : k.FindsTypes p I) :
    (note >>= fun _ => k).FindsTypes p I := by
  intro env s hs hI id l hfail
  rw [runIn_bind_ok (hrun env s)] at hfail
  exact h env _ (hready hs) (hI.mono fun id hid => by rwa [htypes]) id l hfail

/-- The body of a function literal may be refused, for whatever reason. -/
theorem bodySource {body : Nat} {sig : Signature} {k : Option BodySource → LowerM α}
    {f : FunctionText → LowerM α} (hwithout : (k none).FindsTypes p I)
    (hasked : ∀ source, k (some source) = requestBody source body sig >>= f)
    (hf : ∀ function, (f function).FindsTypes p I) : (Lower.bodySource >>= k).FindsTypes p I := by
  -- The body source may fail for its own reasons, and that is the only failure that is not found
  -- here.
  intro env s hs htypes id l hfail
  have hsource : Lower.bodySource.runIn env s = (.ok env.bodies, s) := rfl
  rw [runIn_bind_ok hsource] at hfail
  cases hbodies : env.bodies with
  | none =>
    rw [hbodies] at hfail
    exact hwithout env s hs htypes id l hfail
  | some source =>
    rw [hbodies, hasked] at hfail
    have hrun := runIn_requestBody env s source body sig
    cases hanswer : source ((body, sig) :: s.bodyRequests) with
    | error failure =>
      rw [hanswer] at hrun
      rw [runIn_bind_error hrun] at hfail
      obtain rfl : failure = .gap (.missingType id l) := Except.error.inj hfail
      exact ⟨source, _, hbodies, hanswer⟩
    | ok function =>
      rw [hanswer] at hrun
      rw [runIn_bind_ok hrun] at hfail
      exact hf function env { s with bodyRequests := (body, sig) :: s.bodyRequests }
        ⟨hs.constant, hs.fresh⟩ htypes id l hfail

/-! ### Connectives and sequences -/

/-- The right operand is lowered in the state that the left one leaves. -/
theorem logical {v : Nat} {self : Lowering} {left right : Expr}
    (hlaw : (typing p).Holds v (self left none) fun _ => True)
    (hleft : (self left none).FindsTypes p I) (hright : (self right none).FindsTypes p I) (e : Expr)
    (op : BinaryOp) : (Lower.logical self e op left right).FindsTypes p I := by
  intro env s hs htypes id l hfail
  have hl := hleft env s hs htypes id l
  rcases hrunl : (self left none).runIn env s with ⟨err | condition, s₁⟩
  · rw [runIn_logical_left_error hrunl] at hfail
    exact hl (by rw [hrunl]; exact congrArg Except.error (Except.error.inj hfail))
  have hk := hlaw env s hs _ _ hrunl
  -- The right operand is lowered in a state where the types of both are still known.
  have hr := hright (env.inRightOf e.id) s₁ ((hs.steady hk.steady).inRightOf e.id)
    (htypes.mono hk.rel) id l
  rcases hrunr : (self right none).runIn (env.inRightOf e.id) s₁ with ⟨err | value, s₂⟩
  · rw [runIn_logical_right_error hrunl hrunr] at hfail
    exact hr (by rw [hrunr]; exact congrArg Except.error (Except.error.inj hfail))
  · rw [runIn_logical_ok hrunl hrunr] at hfail
    split at hfail <;> cases hfail

/-- A further part finds its types. -/
theorem add {m : LowerM String} (h : m.FindsTypes p I) (hint : String) (parts : Parts) :
    (parts.add hint m).FindsTypes p I := by
  intro env s hs htypes id l hfail
  rcases hm : m.runIn env s with ⟨err | text, s₁⟩
  · rw [runIn_add_error hm] at hfail
    exact h env s hs htypes id l (by rw [hm]; exact congrArg Except.error (Except.error.inj hfail))
  -- Moving texts to temporaries does not fail.
  by_cases hcount : s₁.pending.length = s.pending.length
  · rw [runIn_add_quiet hm hcount] at hfail
    cases hfail
  · obtain ⟨parts', s₂, hmove⟩ := exists_runIn_move env (s₁.splitAt s.pending.length).2 hint parts
    rw [runIn_add_moved hm hcount hmove] at hfail
    cases hfail

/-! ### Lowering -/

/-- Where parts find types, all that is put together from them does. -/
theorem of_built {S : Setting} {I : NodeId → Prop} {w : Nat} {Q : α → Prop}
    (hlaw : ∀ e desired,
      (typing S.prices).Holds (S.prices.price e) (S.self e desired) fun _ => True)
    (hself : ∀ {J : NodeId → Prop} {e}, (e.All fun c => J c.id) → ∀ desired,
      (S.self e desired).FindsTypes S.prices J) (h : Built S I w m Q) : m.FindsTypes S.prices I := by
  -- By induction on how the lowering is built. Most primitives cannot fail at all, or fail
  -- otherwise.
  induction h with
  | pure h => exact of_pure _
  | bind first _ ih₁ ih₂ => exact bind (RunLaw.holds_of_built hlaw first) ih₁ ih₂
  | weaken _ _ _ ih => exact ih
  | fail h =>
    refine of_failures fun env s e he id l heq => ?_
    rw [heq] at he
    exact h id l (CompileError.gap.inj (Except.error.inj he))
  | typeOf h => exact typeOf h
  | constantOf _ => exact of_ok fun _ _ => rfl
  | boundObject? _ => exact of_ok fun _ _ => rfl
  | selectionOf _ => exact of_ok fun _ _ => rfl
  | config f => exact of_ok fun _ _ => rfl
  | bodySource => exact of_ok fun _ _ => rfl
  | newLocal hint => exact of_ok (runIn_newLocal · · hint)
  | accessorBox key _ => exact of_ok (runIn_accessorBox · · key)
  | reportError message span => exact of_ok (runIn_reportError · · message span)
  | synthesizeNode type span _ ih => exact synthesizeNode ih
  | synthesizeUse name obj type span _ ih =>
    simp only [Lower.synthesizeUse, bind_assoc, pure_bind]
    exact synthesizeNode fun node hfresh =>
      noted (fun _ _ => rfl) (fun hs => ⟨hs.constant, hs.fresh⟩) (fun _ => rfl) (ih node hfresh)
  | synthesizeSelector type span selection _ ih =>
    exact synthesizeNode fun node hfresh =>
      noted (runIn_recordSelection · · node.id selection) (fun hs => ⟨hs.constant, hs.fresh⟩)
        (fun _ => rfl) (ih node hfresh)
  | synthesizeSuspending type span _ ih =>
    exact synthesizeNode fun node hfresh =>
      noted (runIn_markSuspending · · node.id) (fun hs => ⟨hs.constant, hs.fresh⟩) (fun _ => rfl)
        (ih node hfresh)
  | recordLowered e => exact of_ok (runIn_recordLowered · · e)
  | requestBody body sig _ asked _ ih₁ ih₂ => exact bodySource ih₁ asked ih₂
  | lower h desired => exact hself h.known desired
  | keepInTemporary hint value _ => exact of_ok (runIn_keepInTemporary · · hint value)
  | assigned write target value _ => exact of_ok (RunLaw.runIn_assigned · · write target value)
  | placeCall _ sig call =>
    refine of_failures fun env s e he => ?_
    rw [RunLaw.runIn_placeCall] at he
    split at he
    · split at he <;> cases he
    · cases he
  | logical _ hleft hright _ =>
    exact logical (hlaw _ none) (hself hleft none) (hself hright none) _ _
  | add _ parts _ ih => exact add ih _ parts

/-- Lowering finds the types of a tree, with any number of lowerings inside one another. -/
theorem within (p : Prices) (n : Nat) {I : NodeId → Prop} {e : Expr} (h : e.All fun c => I c.id)
    (desired : Option GoType) : (Lower.within n e desired).FindsTypes p I := by
  induction n generalizing I e desired with
  | zero =>
    refine of_failures fun env s e he => ?_
    cases he
    exact fun id l heq => by cases heq
  | succ n ih =>
    have hfits : e.Fits ⟨Lower.within n, p, fun _ => True⟩ I := ⟨h, e.outer_of_forall fun _ => trivial⟩
    exact of_built (S := ⟨Lower.within n, p, fun _ => True⟩)
      (fun e desired => (typing p).holds_within n e desired) (fun h desired => ih h desired)
      (Built.expression hfits desired)

end FindsTypes

end

/-! ### Requests -/

/-- Every request finds its types. -/
theorem Request.findsTypes (p : Prices) {I : NodeId → Prop} {request : Request}
    (h : request.All fun c => I c.id) : request.run.FindsTypes p I := by
  obtain ⟨w, hbuilt⟩ := request.built_of_known p h
  exact FindsTypes.of_built ((typing p).holds_within request.depth)
    (fun hknown desired => FindsTypes.within p request.depth hknown desired) hbuilt

/-! ### Trees that are built -/

namespace Build

/-- What the builder can be told to make of trees that it has made before. -/
inductive Makes (trees : List Expr) : Build Expr → Prop where
  | ident (obj : Object) : Makes trees (ident obj)
  | nil (type : GoType) : Makes trees (nil type)
  | constant (value : Constant) (type : GoType) : Makes trees (constant value type)
  | form (type : GoType) {make : Node → Expr} (hnode : ∀ n, (make n).node = n)
      (hparts : ∀ n, ∀ c ∈ (make n).parts, c ∈ trees) :
      Makes trees (do return make (← node type))
  | paren {inner : Expr} (h : inner ∈ trees) : Makes trees (paren inner)
  | field {base : Expr} (h : base ∈ trees) (place : Nat) : Makes trees (field base place)
  | method {base : Expr} (h : base ∈ trees) (obj : Object) (path : List Nat)
      (kind : SelectionKind) : Makes trees (method base obj path kind)
  | qualified (package : String) (obj : Object) : Makes trees (qualified package obj)

end Build

namespace TreeBuilder

/-- A builder and the trees that it has made so far. -/
inductive HasMade : TreeBuilder → List Expr → Prop where
  | nothing : HasMade {} []
  | make {b : TreeBuilder} {trees : List Expr} {m : Build Expr} (h : HasMade b trees)
      (hm : Build.Makes trees m) : HasMade (m.run b).2 ((m.run b).1 :: trees)
  | mark {b : TreeBuilder} {trees : List Expr} {e : Expr} (h : HasMade b trees) (he : e ∈ trees) :
      HasMade (b.mark e) trees

/-- The builder knows the type of a node. -/
def Types (b : TreeBuilder) (id : NodeId) : Prop :=
  (b.facts.types.get? id).isSome

variable {b : TreeBuilder} {trees : List Expr}

/-- A new node has a type. -/
theorem types_node_self (b : TreeBuilder) (type : GoType) : (b.node type).2.Types (b.node type).1.id := by
  rw [Types, type?_node, id_node, if_pos rfl]
  rfl

/-- What has a type keeps it. -/
theorem Types.node {id : NodeId} (h : b.Types id) (type : GoType) : (b.node type).2.Types id := by
  rw [Types, type?_node]
  split
  · rfl
  · exact h

/-- A tree whose types are known, and one more node. -/
theorem Types.all_node {e : Expr} (h : e.All fun c => b.Types c.id) (type : GoType) :
    e.All fun c => (b.node type).2.Types c.id :=
  h.mono fun _ hc => hc.node type

/-- A node is made around trees whose types are known. -/
theorem types_form {e : Expr} {type : GoType} (hnode : e.node = (b.node type).1)
    (h : ∀ c ∈ e.parts, c.All fun c => b.Types c.id) : e.All fun c => (b.node type).2.Types c.id := by
  refine .intro ?_ fun c hc => Types.all_node (h c hc) type
  rw [Expr.id, hnode]
  exact types_node_self b type

/-- A selector and its name are two nodes. -/
theorem types_select {base : Expr} (h : base.All fun c => b.Types c.id) (text : String)
    (type : GoType) :
    (Expr.selector ((b.node type).2.node type).1 base (.ident (b.node type).1 text)).All
      fun c => ((b.node type).2.node type).2.Types c.id := by
  refine types_form rfl fun c hc => ?_
  rcases List.mem_cons.mp hc with rfl | hc
  · exact Types.all_node h type
  · obtain rfl := List.mem_singleton.mp hc
    exact types_form rfl (List.forall_mem_nil _)

/-- **What the builder makes has types**, and what it has made before keeps them. -/
theorem types_makes {m : Build Expr} (hm : Build.Makes trees m)
    (h : ∀ e ∈ trees, e.All fun c => b.Types c.id) :
    ((m.run b).1.All fun c => (m.run b).2.Types c.id) ∧ ∀ id, b.Types id → (m.run b).2.Types id := by
  -- One case for each way to make a tree; the nodes behind it have the types they are made with.
  cases hm with
  | ident obj => exact ⟨types_form rfl (List.forall_mem_nil _), fun id hid => hid.node obj.type⟩
  | nil type => exact ⟨types_form rfl (List.forall_mem_nil _), fun id hid => hid.node type⟩
  | constant value type =>
    exact ⟨types_form rfl (List.forall_mem_nil _), fun id hid => hid.node type⟩
  | form type hnode hparts =>
    exact ⟨types_form (hnode _) fun c hc => h c (hparts _ c hc), fun id hid => hid.node type⟩
  | @paren inner hinner =>
    refine ⟨types_form rfl fun c hc => ?_, fun id hid => hid.node (b.typeOf inner)⟩
    obtain rfl := List.mem_singleton.mp hc
    exact h _ hinner
  | @field base hbase place =>
    exact ⟨types_select (h base hbase) _ _, fun id hid => (hid.node _).node _⟩
  | @method base hbase obj path kind =>
    exact ⟨types_select (h base hbase) _ _, fun id hid => (hid.node _).node _⟩
  | qualified package obj =>
    refine ⟨types_form rfl fun c hc => ?_, fun id hid => ((hid.node _).node _).node _⟩
    rcases List.mem_cons.mp hc with rfl | hc
    · exact Types.all_node (types_form rfl (List.forall_mem_nil _)) obj.type
    · obtain rfl := List.mem_singleton.mp hc
      exact types_form rfl (List.forall_mem_nil _)

/-- All nodes of the trees that were made have types. -/
theorem HasMade.types (hmade : b.HasMade trees) : ∀ e ∈ trees, e.All fun c => b.Types c.id := by
  induction hmade with
  | nothing => exact List.forall_mem_nil _
  | make h hm ih =>
    obtain ⟨hnew, hkeep⟩ := types_makes hm ih
    intro e he
    rcases List.mem_cons.mp he with rfl | he
    · exact hnew
    · exact (ih e he).mono fun c hc => hkeep c.id hc
  | mark h he ih => exact ih

end TreeBuilder

/-! ### No type is missing -/

/-- **Types are found.** Lowering a tree whose nodes all have types, from whatever state and by whatever
entry point, does not fail for want of a type, unless the source of function bodies says so; and all
trees that the builder makes are of this kind, with the facts that it has recorded. -/
theorem Request.types_found :
    (∀ (env : Env) (s : FunctionState) (request : Request), request.All (env.HasType s) → ∀ id l,
      (request.run.runIn env s).1 = .error (.gap (.missingType id l)) →
        env.Refuses (.gap (.missingType id l))) ∧
    ∀ (b : TreeBuilder) (trees : List Expr), b.HasMade trees → ∀ e ∈ trees,
      ∀ (env : Env) (s : FunctionState), env.facts = b.facts → e.All (env.HasType s) := by
  refine ⟨fun env s request h id l hfail => ?_, fun b trees hmade e he env s hfacts => ?_⟩
  · have hfinds := request.findsTypes (I := fun id => (env.type? s id).isSome) (freePrices env s) h
    exact hfinds env s (ready_freePrices env s) (fun _ h => h) id l hfail
  · refine (hmade.types e he).mono fun c hc => ?_
    have htype : (env.facts.types.get? c.id).isSome := hfacts ▸ hc
    rw [Env.HasType, Env.type?, Option.isSome_or, htype, Bool.or_true]

/-- `ready && <-events` as the builder makes it: no type is missing when it is lowered. -/
theorem Request.types_found_readyAndReceived :
    let env : Env := { facts := (readyAndReceived.run {}).2.facts }
    ∃ trees, (readyAndReceived.run {}).2.HasMade trees ∧ (readyAndReceived.run {}).1 ∈ trees ∧
      ∀ id l, ((lower (readyAndReceived.run {}).1 none).runIn env {}).1 ≠
        .error (.gap (.missingType id l)) := by
  intro env
  obtain ⟨hfound, hbuilt⟩ := types_found
  have hevents := (TreeBuilder.HasMade.nothing.make (.ident (.var "ready" (.basic .bool)))).make
    (.ident (.var "events" (.chan (.basic .bool))))
  have hreceived := hevents.make (.form (.basic .bool) (fun n => rfl) fun n c (hc : c ∈
      (Expr.unary n .recv (.ident ⟨1, TreeBuilder.spanOf 1⟩ "events")).parts) => by
    obtain rfl := List.mem_singleton.mp hc
    exact List.mem_cons_self)
  have hboth := hreceived.make (.form (.basic .bool) (fun n => rfl) fun n c (hc : c ∈
      (Expr.binary n .logicalAnd (.ident ⟨0, TreeBuilder.spanOf 0⟩ "ready")
        (.unary ⟨2, TreeBuilder.spanOf 2⟩ .recv (.ident ⟨1, TreeBuilder.spanOf 1⟩ "events"))).parts) => by
    rcases List.mem_cons.mp hc with rfl | hc
    · exact List.mem_cons_of_mem _ (List.mem_cons_of_mem _ List.mem_cons_self)
    · obtain rfl := List.mem_singleton.mp hc
      exact List.mem_cons_self)
  refine ⟨_, hboth, List.mem_cons_self, fun id l hfail => ?_⟩
  have htyped := hbuilt _ _ hboth _ List.mem_cons_self env {} rfl
  obtain ⟨source, -, hsource, -⟩ := hfound env {} (.expression _ none) htyped id l hfail
  cases hsource

end GoLua
