import GoLua.Proofs.ResumeSteps
import GoLua.Proofs.Written.Expr

/-!
# Requests that keep to the vocabulary

A new state is sound, and so is what every request makes of a sound one. Where reads are not restricted
nothing is asked of the trees, so a whole session keeps to the vocabulary if what each of its runs reads
does (`Session.Sound.foldl`). Where they are, the trees must have their nodes before those that
lowering makes (`Expr.settles_new`).
-/

namespace GoLua

section

variable {V : Vocabulary} {env : Env} {s : FunctionState} {request : Request}

/-! ### New states -/

/-- Nothing is pending in a new state, and nothing is known about its nodes to come. -/
theorem FunctionState.sound_new : FunctionState.Sound V {} where
  pending := trivial
  minted _ h := (nomatch h)
  boxes _ h := (nomatch h)
  type h := (nomatch h)
  selection h := (nomatch h)
  loose _ _ _ h := (nomatch h)
  closed _ :=
    { synthetic := Nat.le_refl _
      free := fun _ _ => rfl
      uses := fun h => (nomatch h)
      constants := fun _ => rfl
      selections := fun h => (nomatch h) }

namespace Expr

/-- Where reads are not restricted, no node has to be settled. -/
theorem settles_of_loose (hloose : ¬ V.strict) (e : Expr) : e.Settles V env s :=
  all_of_forall (fun _ => ⟨fun hstrict => absurd hstrict hloose, fun hstrict => absurd hstrict hloose⟩) e

/-- A node of the program, in order. -/
def IsOriginal (V : Vocabulary) (env : Env) (e : Expr) : Prop :=
  e.id < firstSyntheticId ∧ e.Regular V env

/-- In a new state all nodes of the program are settled. -/
theorem settles_new {e : Expr} (h : e.All (IsOriginal V env)) : e.Settles V env {} :=
  Expr.All.mono (fun _ hc => ⟨fun _ => ⟨hc.1, fun _ h => (nomatch h)⟩, fun _ => hc.2⟩) h

end Expr

/-! ### Requests -/

/-- The types that a request comes with keep to the vocabulary. A template comes with a pattern, which is
not of the program. -/
def Request.Plain (V : Vocabulary) : Request → Prop
  | .expression _ _ | .implicit _ _ => True
  | .conversion _ target | .implicitCopy _ target => target.Spelled V
  | .template _ _ _ => False

/-- **Requests keep to the vocabulary.** -/
theorem Delivers.answer (henv : env.Plain V) (h : request.Plain V)
    (hnodes : request.All (Expr.IsSettled V env s)) :
    Delivers V env s request.run (IsSound V) := by
  cases request with
  | expression e desired => exact .lower henv hnodes desired
  | conversion e target => exact .lowerConversion henv hnodes h
  | implicit e target => exact .lowerImplicit henv hnodes target
  | implicitCopy e target => exact .lowerImplicitCopy henv hnodes h
  | template parens pattern operands => exact absurd h id

/-- Where reads are not restricted, any tree may be asked for. -/
theorem Request.Plain.settles (h : request.Plain V) (hloose : ¬ V.strict) :
    request.All (Expr.IsSettled V env s) := by
  cases request with
  | expression e desired => exact e.settles_of_loose hloose
  | conversion e target => exact e.settles_of_loose hloose
  | implicit e target => exact e.settles_of_loose hloose
  | implicitCopy e target => exact e.settles_of_loose hloose
  | template parens pattern operands => exact h

/-- In a new state all trees of the program are settled. -/
theorem Request.settles_new (h : request.All (Expr.IsOriginal V env)) :
    request.All (Expr.IsSettled V env {}) := by
  cases request with
  | expression e desired => exact Expr.settles_new h
  | conversion e target => exact Expr.settles_new h
  | implicit e target => exact Expr.settles_new h
  | implicitCopy e target => exact Expr.settles_new h
  | template parens pattern operands => exact h

end

/-! ### Sessions -/

/-- What an action reads and asks for keeps to the vocabulary. -/
def Action.Plain (V : Vocabulary) : Action → Prop
  | .run env request => env.Plain V ∧ request.Plain V
  | .drain => True

namespace Session

variable {V : Vocabulary} {session : Session}

/-- The state is sound, and all statements that were taken out of it are in the grammar. -/
structure Sound (V : Vocabulary) (session : Session) : Prop where
  state : session.state.Sound V
  emitted : Scoped V (fun _ => True) session.emitted

theorem sound_new : Session.Sound V {} :=
  ⟨FunctionState.sound_new, trivial⟩

namespace Sound

/-- All statements there have been are in the grammar. -/
theorem statements (h : session.Sound V) : Scoped V (fun _ => True) session.statements :=
  scoped_append.mpr ⟨h.emitted, h.state.pending.mono _ fun _ _ => .inl trivial⟩

/-- A request on a sound session. -/
theorem answer (h : session.Sound V) (hloose : ¬ V.strict) {env : Env} (henv : env.Plain V)
    {request : Request} (hrequest : request.Plain V) :
    Delivered V session.state (request.run.runIn env session.state).1
      (session.act (.run env request)).state (IsSound V) :=
  Delivers.answer henv hrequest (hrequest.settles hloose) h.state _ _ rfl

theorem act (h : session.Sound V) (hloose : ¬ V.strict) {action : Action}
    (haction : action.Plain V) : (session.act action).Sound V := by
  cases action with
  | run env request => exact ⟨(h.answer hloose haction.1 haction.2).sound, h.emitted⟩
  | drain =>
    have hnone : session.state.pending = [] ++ session.state.pending := rfl
    exact ⟨h.state.cut hnone, h.statements⟩

/-- **Sessions keep to the vocabulary.** -/
theorem foldl (h : session.Sound V) (hloose : ¬ V.strict) {actions : List Action}
    (hactions : ∀ action ∈ actions, action.Plain V) : (actions.foldl Session.act session).Sound V := by
  induction actions generalizing session with
  | nil => exact h
  | cons action actions ih =>
    exact ih (h.act hloose (hactions action (by simp))) fun a ha => hactions a (by simp [ha])

end Sound

end Session

end GoLua
