import GoLua.Emit.LowerM

/-!
# Running a computation

What a computation of the lowering monad does to the state, one operation at a time. The equations
of this module are all that later proofs know of the monad: a run is an outcome and the state that
it leaves, and a failure keeps the state that it arose in.
-/

namespace GoLua

namespace LowerM

variable {α β : Type} (env : Env) (s : FunctionState)

@[simp] theorem runIn_pure (a : α) : (pure a : LowerM α).runIn env s = (.ok a, s) := rfl

@[simp] theorem runIn_throw (e : CompileError) :
    (throw e : LowerM α).runIn env s = (.error e, s) := rfl

/-- The second computation runs where the first one succeeds, in the state that it leaves. -/
theorem runIn_bind (m : LowerM α) (f : α → LowerM β) :
    (m >>= f).runIn env s =
      match m.runIn env s with
      | (.ok a, s') => (f a).runIn env s'
      | (.error e, s') => (.error e, s') := by
  change (fun r => ExceptT.bindCont (fun a => f a env) r.1 r.2) (m env s) = _
  unfold runIn
  rcases m env s with ⟨_ | _, _⟩ <;> rfl

/-- A step that succeeds is followed by the next one, in the state it leaves. -/
theorem runIn_bind_ok {m : LowerM α} {env : Env} {s s' : FunctionState} {a : α}
    (h : m.runIn env s = (.ok a, s')) (f : α → LowerM β) :
    (m >>= f).runIn env s = (f a).runIn env s' := by
  rw [runIn_bind, h]

/-- A step that fails ends the run. -/
theorem runIn_bind_error {m : LowerM α} {env : Env} {s s' : FunctionState} {e : CompileError}
    (h : m.runIn env s = (.error e, s')) (f : α → LowerM β) :
    (m >>= f).runIn env s = (.error e, s') := by
  rw [runIn_bind, h]

/-- A sequence that succeeds is a success of the first computation followed by one of the second. -/
theorem runIn_bind_eq_ok {m : LowerM α} {f : α → LowerM β} {env : Env} {s s' : FunctionState}
    {b : β} (h : (m >>= f).runIn env s = (.ok b, s')) :
    ∃ a s₁, m.runIn env s = (.ok a, s₁) ∧ (f a).runIn env s₁ = (.ok b, s') := by
  rw [runIn_bind] at h
  rcases hm : m.runIn env s with ⟨_ | a, s₁⟩
  · rw [hm] at h
    simp at h
  · rw [hm] at h
    exact ⟨a, s₁, rfl, h⟩

theorem runIn_pure_eq_ok {a b : α} {env : Env} {s s' : FunctionState}
    (h : (pure a : LowerM α).runIn env s = (.ok b, s')) : a = b ∧ s = s' :=
  ⟨Except.ok.inj (Prod.mk.inj h).1, (Prod.mk.inj h).2⟩

/-- Where something is only made of the outcome, the run is that of the computation. -/
theorem runIn_map_eq_ok {m : LowerM α} {f : α → β} {env : Env} {s s' : FunctionState} {b : β}
    (h : (m >>= fun a => pure (f a)).runIn env s = (.ok b, s')) :
    ∃ a, m.runIn env s = (.ok a, s') ∧ f a = b := by
  obtain ⟨a, s₁, hm, h⟩ := runIn_bind_eq_ok h
  obtain ⟨hb, rfl⟩ := runIn_pure_eq_ok h
  exact ⟨a, hm, hb⟩

/-- A run whose outcome is a success has a result. -/
theorem exists_runIn_eq_ok {m : LowerM α} {env : Env} {s : FunctionState}
    (h : (m.runIn env s).1.isOk) : ∃ a s', m.runIn env s = (.ok a, s') := by
  rcases hm : m.runIn env s with ⟨_ | a, s'⟩
  · rw [hm] at h
    cases h
  · exact ⟨a, s', rfl⟩

/-- A list of computations succeeds one after the other. -/
theorem runIn_mapM_cons_eq_ok {f : α → LowerM β} {a : α} {as : List α} {bs : List β} {env : Env}
    {s s' : FunctionState} (h : ((a :: as).mapM f).runIn env s = (.ok bs, s')) :
    ∃ b s₁ rest, (f a).runIn env s = (.ok b, s₁) ∧ (as.mapM f).runIn env s₁ = (.ok rest, s') ∧
      bs = b :: rest := by
  rw [List.mapM_cons] at h
  obtain ⟨b, s₁, hb, h⟩ := runIn_bind_eq_ok h
  obtain ⟨rest, s₂, hrest, h⟩ := runIn_bind_eq_ok h
  obtain ⟨hbs, rfl⟩ := Prod.mk.inj h
  exact ⟨b, s₁, rest, hb, hrest, (Except.ok.inj hbs).symm⟩

/-- Computations that leave the state alone do so one after the other. -/
theorem runIn_mapM_of_still {f : α → LowerM β} {g : α → β} {env : Env} {s : FunctionState}
    (h : ∀ a, (f a).runIn env s = (.ok (g a), s)) (as : List α) :
    (as.mapM f).runIn env s = (.ok (as.map g), s) := by
  induction as with
  | nil => rfl
  | cons a as ih =>
    rw [List.mapM_cons, runIn_bind_ok (h a), runIn_bind_ok ih]
    rfl

end LowerM

namespace Lower

variable {α : Type} (env : Env) (s : FunctionState)

@[simp] theorem runIn_view (f : Env → FunctionState → α) :
    (view f).runIn env s = (.ok (f env s), s) := rfl

@[simp] theorem runIn_config (f : Config → α) :
    (config f).runIn env s = (.ok (f env.config), s) := rfl

@[simp] theorem runIn_fail (e : LowerError) :
    (fail e : LowerM α).runIn env s = (.error (.gap e), s) := rfl

/-- A type is looked up, and it is a failure if there is none. -/
@[simp] theorem runIn_typeOf (e : Expr) :
    (typeOf e).runIn env s =
      (match env.type? s e.id with
        | some type => .ok type
        | none => .error (.gap (.missingType e.id e.location)), s) := by
  have hrun : (typeOf e).runIn env s =
      (orFail (env.type? s e.id) (.missingType e.id e.location)).runIn env s := rfl
  rw [hrun]
  cases env.type? s e.id <;> rfl

/-- A recorded type is found. -/
theorem runIn_typeOf_of_type? {env : Env} {s : FunctionState} {e : Expr} {type : GoType}
    (h : env.type? s e.id = some type) : (typeOf e).runIn env s = (.ok type, s) := by
  rw [runIn_typeOf, h]

/-- A type that is found was recorded, and nothing changes. -/
theorem runIn_typeOf_eq_ok {env : Env} {s s' : FunctionState} {e : Expr} {type : GoType}
    (h : (typeOf e).runIn env s = (.ok type, s')) : env.type? s e.id = some type ∧ s' = s := by
  rw [runIn_typeOf] at h
  split at h
  · next found hfound =>
    obtain ⟨hok, rfl⟩ := Prod.mk.inj h
    cases hok
    exact ⟨hfound, rfl⟩
  · cases h

/-- What an identifier is bound to. -/
theorem runIn_objectOf_of_binding {env : Env} {s : FunctionState} {e : Expr} {obj : Object}
    (h : (env.binding s e.id).object? = some obj) : (objectOf e).runIn env s = (.ok obj, s) := by
  have hrun : (objectOf e).runIn env s = (orFail (env.binding s e.id).object?
      (.unresolved (e.identName?.getD "<non-identifier>") e.location)).runIn env s := rfl
  rw [hrun, h]
  rfl

@[simp] theorem runIn_newLocal (hint : String) :
    (newLocal hint).runIn env s = (.ok (s.newLocal hint).1, (s.newLocal hint).2) := rfl

@[simp] theorem runIn_newTemporary (hint : String) :
    (newTemporary hint).runIn env s = (.ok (s.newTemporary hint).1, (s.newTemporary hint).2) := rfl

@[simp] theorem runIn_accessorBox (key : String) :
    (accessorBox key).runIn env s = (.ok (s.accessorBox key).1, (s.accessorBox key).2) := rfl

@[simp] theorem runIn_reportError (message : String) (span : Span) :
    (reportError message span).runIn env s = (.ok (), s.reportError message span) := rfl

@[simp] theorem runIn_newStep : newStep.runIn env s = (.ok s.newStep.1, s.newStep.2) := rfl

@[simp] theorem runIn_inRightOf (id : NodeId) (m : LowerM α) :
    (inRightOf id m).runIn env s = m.runIn (env.inRightOf id) s := rfl

@[simp] theorem runIn_leave (stmt : Statement) (connective : Option NodeId)
    (write : Option HostWrite) : (leave stmt connective write).runIn env s =
      (.ok (), s.leave ⟨env.inside, stmt, connective, write⟩) := rfl

@[simp] theorem runIn_push (stmt : Statement) :
    (push stmt).runIn env s = (.ok (), s.leave ⟨env.inside, stmt, none, none⟩) := rfl

@[simp] theorem runIn_keepInTemporary (hint value : String) :
    (keepInTemporary hint value).runIn env s =
      (.ok (s.newTemporary hint).1,
        (s.newTemporary hint).2.leave
          ⟨env.inside, .assign (s.newTemporary hint).1 value, none, none⟩) :=
  rfl

@[simp] theorem runIn_pendingCount : pendingCount.runIn env s = (.ok s.pending.length, s) := rfl

@[simp] theorem runIn_splitPending (mark : Nat) :
    (splitPending mark).runIn env s = (.ok (s.splitAt mark).1, (s.splitAt mark).2) := rfl

@[simp] theorem runIn_putBack (stmts : List Statement) :
    (putBack stmts).runIn env s = (.ok (), s.putBack stmts) := rfl

/-- What is lowered by its form is recorded, unless it is a name. -/
@[simp] theorem runIn_recordLowered (e : Expr) :
    (recordLowered e).runIn env s =
      (.ok (), if e.unparen.isIdent then s else { s with lowered := e.id :: s.lowered }) := by
  cases h : e.unparen.isIdent <;> simp only [recordLowered, h] <;> rfl

/-- A request is recorded whether it is answered or not. -/
@[simp] theorem runIn_requestBody (source : BodySource) (body : Nat) (sig : Signature) :
    (requestBody source body sig).runIn env s =
      (source ((body, sig) :: s.bodyRequests),
        { s with bodyRequests := (body, sig) :: s.bodyRequests }) := by
  let asked : FunctionState := { s with bodyRequests := (body, sig) :: s.bodyRequests }
  have hask : (modify fun s => { s with bodyRequests := (body, sig) :: s.bodyRequests } :
      LowerM Unit).runIn env s = (.ok (), asked) := rfl
  have hget : (get : LowerM FunctionState).runIn env asked = (.ok asked, asked) := rfl
  rw [requestBody, LowerM.runIn_bind_ok hask, LowerM.runIn_bind_ok hget]
  cases source asked.bodyRequests <;> rfl

/-- A node of a type, as it is made. -/
@[simp] theorem runIn_synthesizeNode (type : GoType) (span : Span) :
    (synthesizeNode type span).runIn env s =
      (.ok ⟨s.nextSynthetic, span⟩, s.newSyntheticId.2.modifyOverlay fun o =>
        { o with types := o.types.insert s.nextSynthetic type }) := rfl

@[simp] theorem runIn_recordSelection (id : NodeId) (selection : Selection) :
    (recordSelection id selection).runIn env s =
      (.ok (), s.modifyOverlay fun o =>
        { o with selections := o.selections.insert id selection }) := rfl

@[simp] theorem runIn_markSuspending (id : NodeId) :
    (markSuspending id).runIn env s =
      (.ok (), s.modifyOverlay fun o => { o with suspending := o.suspending.mark id }) := rfl

@[simp] theorem runIn_isSuspending (e : Expr) :
    (isSuspending e).runIn env s = (.ok (env.suspends s e.id), s) := rfl

@[simp] theorem runIn_selectionOf (e : Expr) :
    (selectionOf e).runIn env s = (.ok (env.selection? s e.id), s) := rfl

@[simp] theorem runIn_constantOf (e : Expr) :
    (constantOf e).runIn env s = (.ok (env.constant? s e.id), s) := rfl

@[simp] theorem runIn_intConstantOf (e : Expr) :
    (intConstantOf e).runIn env s = (.ok ((env.constant? s e.id).bind Constant.toInt?), s) := rfl

end Lower

end GoLua
