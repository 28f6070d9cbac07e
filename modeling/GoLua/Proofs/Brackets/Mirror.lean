import GoLua.Proofs.Annotations
import Mathlib.Logic.Relation

/-!
# Two runs side by side

Two computations *mirror* each other if from states that match they both fail, or both succeed with
results that are related, in states that match again (`MirrorsBy`). States match if they differ at most
in which nodes are recorded as lowered and in where their diagnostics point (`Matches`).

What two runs have in common is a `Scene`. It has a state to start from, and what is said of a scene is
said of every state that comes later: of those in which the nodes that had numbers at the start are
known as they were known then (`Later`). So facts about nodes of a tree, once they are known, need not be
carried along.

`MirrorsBy.bind` puts computations after each other. The steps that lowering takes mirror themselves,
because none of them looks at what may differ.
-/

namespace GoLua

open Lower

/-! ### States -/

/-- Between two states no notes have been taken of nodes that had a number in the first one. -/
structure Later (s s' : FunctionState) : Prop where
  nodes : s.nextSynthetic ≤ s'.nextSynthetic
  agrees : ∀ id < s.nextSynthetic, s.overlay.AgreesAt s'.overlay id

namespace Later

variable {s s₁ s' : FunctionState}

theorem refl (s : FunctionState) : Later s s :=
  ⟨Nat.le_refl _, fun id _ => .refl _ id⟩

/-- A state that is later than a later one is later. -/
theorem trans (h : Later s s₁) (h' : Later s₁ s') : Later s s' where
  nodes := Nat.le_trans h.nodes h'.nodes
  agrees id hid := (h.agrees id hid).trans (h'.agrees id (Nat.lt_of_lt_of_le hid h.nodes))

/-- A step that makes no node and takes no notes. -/
theorem of_still (hnodes : s'.nextSynthetic = s.nextSynthetic) (hoverlay : s'.overlay = s.overlay) :
    Later s s' where
  nodes := Nat.le_of_eq hnodes.symm
  agrees id _ := hoverlay ▸ .refl s.overlay id

/-- A node is made and notes are taken of it. -/
theorem of_new (hnodes : s'.nextSynthetic = s.nextSynthetic + 1)
    (h : ∀ id, s.nextSynthetic ≠ id → s.overlay.AgreesAt s'.overlay id) : Later s s' where
  nodes := hnodes ▸ Nat.le_succ _
  agrees id hid := h id (Nat.ne_of_gt hid)

end Later

/-- The same diagnostic, with the place that it points to moved some number of times. -/
structure Diagnostic.Moved (moved : Span → Span → Prop) (d d' : Diagnostic) : Prop where
  severity : d'.severity = d.severity
  message : d'.message = d.message
  notes : d'.notes = d.notes
  span : Relation.ReflTransGen moved d.span d'.span

/-- States that differ at most in what is recorded as lowered and in where diagnostics point. -/
def Matches (moved : Span → Span → Prop) (s s' : FunctionState) : Prop :=
  ∃ lowered reporter, s' = { s with lowered, reporter } ∧
    List.Forall₂ (Diagnostic.Moved moved) s.reporter.diagnostics reporter.diagnostics

theorem Matches.refl (moved : Span → Span → Prop) (s : FunctionState) : Matches moved s s :=
  ⟨s.lowered, s.reporter, rfl, List.forall₂_same.mpr fun _ _ => ⟨rfl, rfl, rfl, .refl⟩⟩

/-! ### Scenes -/

/-- What two runs have in common: what they read, a state that they come after, and how the places of
two expressions that stand for each other may be moved in one step. -/
structure Scene where
  env : Env
  base : FunctionState
  moved : Span → Span → Prop

namespace Scene

/-- The same scene, from a later state on. -/
def after (scene : Scene) (s : FunctionState) : Scene :=
  { scene with base := s }

/-- What is read in a scene, inside of the right operands of connectives. -/
def reading (scene : Scene) (inside : List NodeId) : Env :=
  { scene.env with inside }

end Scene

variable {α β γ δ : Type}

/-- The outcomes of two runs from a state: both have failed, or both have succeeded. -/
def Outcomes (moved : Span → Span → Prop) (R : α → β → Prop) (s : FunctionState) :
    Except CompileError α × FunctionState → Except CompileError β × FunctionState → Prop
  | (.ok a, t), (.ok b, t') => R a b ∧ Later s t ∧ Matches moved t t'
  | (.error _, _), (.error _, _) => True
  | _, _ => False

/-- Outcomes from a later state, and with less said of the results. -/
theorem Outcomes.imp {moved : Span → Span → Prop} {R R' : α → β → Prop} {s s₁ : FunctionState}
    {r : Except CompileError α × FunctionState} {r' : Except CompileError β × FunctionState}
    (h : Outcomes moved R s₁ r r') (hs : Later s s₁) (hR : ∀ a b, R a b → R' a b) :
    Outcomes moved R' s r r' := by
  rcases r with ⟨_ | a, t⟩ <;> rcases r' with ⟨_ | b, t'⟩
  · trivial
  · exact h
  · exact h
  · exact ⟨hR a b h.1, hs.trans h.2.1, h.2.2⟩

/-- **Mirroring computations.** -/
structure MirrorsBy (scene : Scene) (R : α → β → Prop) (m : LowerM α) (m' : LowerM β) : Prop where
  outcomes : ∀ inside {s s'}, Later scene.base s → Matches scene.moved s s' →
    Outcomes scene.moved R s (m.runIn (scene.reading inside) s)
      (m'.runIn (scene.reading inside) s')

/-- Computations that mirror each other and give the same. -/
abbrev Mirrors (scene : Scene) (m m' : LowerM α) : Prop :=
  MirrorsBy scene Eq m m'

section

variable {scene : Scene} {R : α → β → Prop} {Q : γ → δ → Prop} {m : LowerM α} {m' : LowerM β}

/-! ### Composing -/

/-- What mirrors from a state on does so from every later one. -/
theorem MirrorsBy.later {s : FunctionState} (h : MirrorsBy scene R m m')
    (hs : Later scene.base s) : MirrorsBy (scene.after s) R m m' :=
  ⟨fun inside _ _ hlater hmatches => h.outcomes inside (hs.trans hlater) hmatches⟩

/-- Results may be compared by less. -/
theorem MirrorsBy.imp {R' : α → β → Prop} (h : MirrorsBy scene R m m')
    (hR : ∀ a b, R a b → R' a b) : MirrorsBy scene R' m m' :=
  ⟨fun inside s _ hs hmatches => (h.outcomes inside hs hmatches).imp (.refl s) hR⟩

/-- Computations are run in a state and in one that matches it. -/
theorem mirrors_of_run (h : ∀ inside s, Later scene.base s → ∀ lowered reporter,
    List.Forall₂ (Diagnostic.Moved scene.moved) s.reporter.diagnostics reporter.diagnostics →
      Outcomes scene.moved R s (m.runIn (scene.reading inside) s)
        (m'.runIn (scene.reading inside) { s with lowered, reporter })) : MirrorsBy scene R m m' := by
  constructor
  rintro inside s _ hs ⟨lowered, reporter, rfl, hreports⟩
  exact h inside s hs lowered reporter hreports

theorem mirrors_pure {a : α} {b : β} (h : R a b) : MirrorsBy scene R (pure a) (pure b) :=
  ⟨fun _ s _ _ hmatches => ⟨h, .refl s, hmatches⟩⟩

/-- Two failures mirror each other, whatever they say. -/
theorem mirrors_fail (e e' : LowerError) :
    MirrorsBy scene R (fail e : LowerM α) (fail e' : LowerM β) :=
  ⟨fun _ _ _ _ _ => trivial⟩

theorem mirrors_unsupported (e e' : Expr) (c c' : Construct) :
    MirrorsBy scene R (unsupported e c : LowerM α) (unsupported e' c' : LowerM β) :=
  mirrors_fail _ _

/-- **One after the other.** -/
theorem MirrorsBy.bind {f : α → LowerM γ} {f' : β → LowerM δ} (h : MirrorsBy scene R m m')
    (hf : ∀ a b, R a b → MirrorsBy scene Q (f a) (f' b)) :
    MirrorsBy scene Q (m >>= f) (m' >>= f') := by
  constructor
  intro inside s s' hlater hmatches
  have hfirst := h.outcomes inside hlater hmatches
  rw [LowerM.runIn_bind, LowerM.runIn_bind]
  -- The second computations run only where the first ones have succeeded.
  rcases hm : m.runIn (scene.reading inside) s with ⟨_ | a, t⟩ <;>
    rcases hm' : m'.runIn (scene.reading inside) s' with ⟨_ | b, t'⟩ <;>
    rw [hm, hm'] at hfirst
  · trivial
  · exact hfirst.elim
  · exact hfirst.elim
  · obtain ⟨hab, ht, htmatches⟩ := hfirst
    have hsecond := (hf a b hab).outcomes inside (hlater.trans ht) htmatches
    exact hsecond.imp ht fun _ _ h => h

/-- What follows the same result. -/
theorem Mirrors.bind {m m' : LowerM α} {f f' : α → LowerM γ} {Q : γ → γ → Prop}
    (h : Mirrors scene m m') (hf : ∀ a, MirrorsBy scene Q (f a) (f' a)) :
    MirrorsBy scene Q (m >>= f) (m' >>= f') := by
  refine MirrorsBy.bind h ?_
  rintro a _ rfl
  exact hf a

/-- What is made of a result alone. -/
theorem Mirrors.map {m m' : LowerM α} (f : α → γ) (h : Mirrors scene m m') :
    Mirrors scene (f <$> m) (f <$> m') := by
  rw [map_eq_pure_bind, map_eq_pure_bind]
  exact h.bind fun _ => mirrors_pure rfl

/-- The same decision. -/
theorem mirrors_ite {m m' n n' : LowerM α} {c : Prop} [Decidable c] {R : α → α → Prop}
    (h : c → MirrorsBy scene R m m') (h' : ¬ c → MirrorsBy scene R n n') :
    MirrorsBy scene R (if c then m else n) (if c then m' else n') := by
  split
  · next hc => exact h hc
  · next hc => exact h' hc

/-- Several computations, one for each of two lists whose members stand for each other. -/
theorem mirrors_mapM {S : α → β → Prop} {as : List α} {bs : List β} {f : α → LowerM γ}
    {g : β → LowerM δ} (h : List.Forall₂ S as bs)
    (hf : ∀ a b, S a b → MirrorsBy scene Q (f a) (g b)) :
    MirrorsBy scene (List.Forall₂ Q) (as.mapM f) (bs.mapM g) := by
  induction h with
  | nil => exact mirrors_pure .nil
  | cons hab _ ih =>
    rw [List.mapM_cons, List.mapM_cons]
    exact (hf _ _ hab).bind fun _ _ hc => ih.bind fun _ _ hcs => mirrors_pure (.cons hc hcs)

/-- The same for equal results. -/
theorem mirrors_mapM_eq {S : α → β → Prop} {as : List α} {bs : List β} {f : α → LowerM γ}
    {g : β → LowerM γ} (h : List.Forall₂ S as bs) (hf : ∀ a b, S a b → Mirrors scene (f a) (g b)) :
    Mirrors scene (as.mapM f) (bs.mapM g) := by
  have heq := mirrors_mapM h hf
  rwa [List.forall₂_eq_eq_eq] at heq

/-- The same computations on both sides, one for each member of a list. -/
theorem mirrors_mapM_same {as : List α} {f g : α → LowerM γ} (hf : ∀ a, Mirrors scene (f a) (g a)) :
    Mirrors scene (as.mapM f) (as.mapM g) := by
  refine mirrors_mapM_eq (S := Eq) (List.forall₂_refl as) ?_
  rintro a _ rfl
  exact hf a

/-! ### Looking -/

/-- What is looked up in matching states. -/
theorem mirrors_view {f f' : Env → FunctionState → α}
    (h : ∀ inside s, Later scene.base s → ∀ lowered reporter,
      f' (scene.reading inside) { s with lowered, reporter } = f (scene.reading inside) s) :
    Mirrors scene (view f) (view f') := by
  refine mirrors_of_run fun inside s hs lowered reporter hreports => ?_
  exact ⟨(h inside s hs lowered reporter).symm, .refl s, lowered, reporter, rfl, hreports⟩

theorem mirrors_config (f : Config → α) : Mirrors scene (config f) (config f) :=
  ⟨fun _ s _ _ hmatches => ⟨rfl, .refl s, hmatches⟩⟩

/-- What is missing is missing on both sides. -/
theorem mirrors_orFail (value : Option α) (e e' : LowerError) :
    Mirrors scene (orFail value e) (orFail value e') := by
  cases value with
  | none => exact mirrors_fail e e'
  | some a => exact mirrors_pure rfl

/-- Results of computations without effects, which may fail for different reasons. -/
theorem mirrors_ofExcept {r r' : Except LowerError α} (h : r'.toOption = r.toOption) :
    Mirrors scene (ofExcept r) (ofExcept r') := by
  cases r <;> cases r' <;> first
    | exact mirrors_fail _ _
    | exact mirrors_pure (Option.some.inj h).symm
    | cases h

/-! ### Steps -/

/-- A step that looks neither at what is recorded as lowered nor at diagnostics. -/
theorem mirrors_step {m : LowerM α} {value : Env → FunctionState → α}
    {step : Env → FunctionState → FunctionState}
    (hrun : ∀ env s, m.runIn env s = (.ok (value env s), step env s))
    (hvalue : ∀ env s lowered reporter,
      value env { s with lowered, reporter } = value env s)
    (hstep : ∀ env s lowered reporter,
      step env { s with lowered, reporter } = { step env s with lowered, reporter })
    (hreporter : ∀ env s, (step env s).reporter = s.reporter)
    (hlater : ∀ env s, Later s (step env s)) : Mirrors scene m m := by
  refine mirrors_of_run fun inside s _ lowered reporter hreports => ?_
  rw [hrun, hrun]
  refine ⟨(hvalue _ s lowered reporter).symm, hlater _ s, lowered, reporter,
    hstep _ s lowered reporter, ?_⟩
  rwa [hreporter]

theorem mirrors_newLocal (hint : String) : Mirrors scene (newLocal hint) (newLocal hint) :=
  mirrors_step (runIn_newLocal · · hint) (fun _ _ _ _ => rfl) (fun _ _ _ _ => rfl)
    (fun _ _ => rfl) fun _ _ => .of_still rfl rfl

theorem mirrors_newTemporary (hint : String) :
    Mirrors scene (newTemporary hint) (newTemporary hint) :=
  mirrors_step (runIn_newTemporary · · hint) (fun _ _ _ _ => rfl) (fun _ _ _ _ => rfl)
    (fun _ _ => rfl) fun _ _ => .of_still rfl rfl

theorem mirrors_newStep : Mirrors scene newStep newStep :=
  mirrors_step runIn_newStep (fun _ _ _ _ => rfl) (fun _ _ _ _ => rfl) (fun _ _ => rfl)
    fun _ _ => .of_still rfl rfl

theorem mirrors_leave (stmt : Statement) (connective : Option NodeId) (write : Option HostWrite) :
    Mirrors scene (leave stmt connective write) (leave stmt connective write) :=
  mirrors_step (runIn_leave · · stmt connective write) (fun _ _ _ _ => rfl) (fun _ _ _ _ => rfl)
    (fun _ _ => rfl) fun _ _ => .of_still rfl rfl

theorem mirrors_keepInTemporary (hint value : String) :
    Mirrors scene (keepInTemporary hint value) (keepInTemporary hint value) :=
  mirrors_step (runIn_keepInTemporary · · hint value) (fun _ _ _ _ => rfl) (fun _ _ _ _ => rfl)
    (fun _ _ => rfl) fun _ _ => .of_still rfl rfl

theorem mirrors_pendingCount : Mirrors scene pendingCount pendingCount :=
  mirrors_step runIn_pendingCount (fun _ _ _ _ => rfl) (fun _ _ _ _ => rfl) (fun _ _ => rfl)
    fun _ s => .refl s

theorem mirrors_splitPending (mark : Nat) :
    Mirrors scene (splitPending mark) (splitPending mark) :=
  mirrors_step (runIn_splitPending · · mark) (fun _ _ _ _ => rfl) (fun _ _ _ _ => rfl)
    (fun _ _ => rfl) fun _ _ => .of_still rfl rfl

theorem mirrors_putBack (stmts : List Statement) : Mirrors scene (putBack stmts) (putBack stmts) :=
  mirrors_step (runIn_putBack · · stmts) (fun _ _ _ _ => rfl) (fun _ _ _ _ => rfl)
    (fun _ _ => rfl) fun _ _ => .of_still rfl rfl

/-- A box is looked up by its key, which is the same on both sides. -/
theorem mirrors_accessorBox (key : String) : Mirrors scene (accessorBox key) (accessorBox key) := by
  refine mirrors_step (runIn_accessorBox · · key) (fun _ s lowered reporter => ?_)
    (fun _ s lowered reporter => ?_) (fun _ s => ?_) fun _ s => ?_ <;>
    unfold FunctionState.accessorBox
  · cases s.accessorBoxes.lookup key <;> rfl
  · cases s.accessorBoxes.lookup key <;> rfl
  · split <;> rfl
  · split
    · exact .refl s
    · exact .of_still rfl rfl

/-- Diagnostics may point to different places. -/
theorem mirrors_reportError (message : String) {span span' : Span}
    (h : Relation.ReflTransGen scene.moved span span') :
    Mirrors scene (reportError message span) (reportError message span') := by
  refine mirrors_of_run fun inside s _ lowered reporter hreports => ?_
  refine ⟨rfl, .of_still rfl rfl, lowered, reporter.report ⟨.error, message, span', []⟩, rfl, ?_⟩
  exact List.rel_append hreports (.cons ⟨rfl, rfl, rfl, h⟩ .nil)

/-- What is recorded as lowered may differ. -/
theorem mirrors_recordLowered (e e' : Expr) :
    Mirrors scene (recordLowered e) (recordLowered e') := by
  refine mirrors_of_run fun inside s _ lowered reporter hreports => ?_
  rw [runIn_recordLowered, runIn_recordLowered]
  split <;> split <;> exact ⟨rfl, .of_still rfl rfl, _, reporter, rfl, hreports⟩

theorem mirrors_bodySource : Mirrors scene bodySource bodySource :=
  ⟨fun _ s _ _ hmatches => ⟨rfl, .refl s, hmatches⟩⟩

/-- A body source is asked with the requests so far, and those are the same. -/
theorem mirrors_requestBody (source : BodySource) (body : Nat) (sig : Signature) :
    Mirrors scene (requestBody source body sig) (requestBody source body sig) := by
  refine mirrors_of_run fun inside s _ lowered reporter hreports => ?_
  rw [runIn_requestBody, runIn_requestBody]
  -- The answer depends on the requests so far, which are the same.
  change Outcomes _ _ s (source ((body, sig) :: s.bodyRequests), _)
    (source ((body, sig) :: s.bodyRequests), _)
  cases source ((body, sig) :: s.bodyRequests) with
  | error failure => trivial
  | ok function => exact ⟨rfl, .of_still rfl rfl, lowered, reporter, rfl, hreports⟩

/-- Inside of the right operand of the same connective. -/
theorem mirrors_inRightOf (connective : NodeId) (h : MirrorsBy scene R m m') :
    MirrorsBy scene R (inRightOf connective m) (inRightOf connective m') :=
  ⟨fun inside _ _ hlater hmatches => h.outcomes (connective :: inside) hlater hmatches⟩

/-! ### New nodes -/

/-- A node is made, with notes about it. It has the same number in both runs, and what follows may look
at the notes. -/
theorem mirrors_new {m : LowerM α} {m' : LowerM β} {value : FunctionState → α}
    {value' : FunctionState → β} {step : FunctionState → FunctionState} {f : α → LowerM γ}
    {f' : β → LowerM δ} (hrun : ∀ env s, m.runIn env s = (.ok (value s), step s))
    (hrun' : ∀ env s, m'.runIn env s = (.ok (value' s), step s))
    (hvalue' : ∀ s lowered reporter, value' { s with lowered, reporter } = value' s)
    (hstep : ∀ s lowered reporter,
      step { s with lowered, reporter } = { step s with lowered, reporter })
    (hreporter : ∀ s, (step s).reporter = s.reporter) (hlater : ∀ s, Later s (step s))
    (h : ∀ s, Later scene.base s →
      MirrorsBy (scene.after (step s)) Q (f (value s)) (f' (value' s))) :
    MirrorsBy scene Q (m >>= f) (m' >>= f') := by
  refine mirrors_of_run fun inside s hs lowered reporter hreports => ?_
  rw [LowerM.runIn_bind_ok (hrun _ s), LowerM.runIn_bind_ok (hrun' _ _), hvalue' s lowered reporter,
    hstep s lowered reporter]
  have hmatches : Matches scene.moved (step s) { step s with lowered, reporter } :=
    ⟨lowered, reporter, rfl, by rwa [hreporter]⟩
  exact ((h s hs).outcomes inside (.refl _) hmatches).imp (hlater s) fun _ _ h => h

/-- A node that is made where nothing looks at the notes. -/
theorem mirrors_made {m : LowerM α} {m' : LowerM β} {value : FunctionState → α}
    {value' : FunctionState → β} {step : FunctionState → FunctionState}
    (hrun : ∀ env s, m.runIn env s = (.ok (value s), step s))
    (hrun' : ∀ env s, m'.runIn env s = (.ok (value' s), step s))
    (hvalue' : ∀ s lowered reporter, value' { s with lowered, reporter } = value' s)
    (hstep : ∀ s lowered reporter,
      step { s with lowered, reporter } = { step s with lowered, reporter })
    (hreporter : ∀ s, (step s).reporter = s.reporter) (hlater : ∀ s, Later s (step s))
    (h : ∀ s, R (value s) (value' s)) : MirrorsBy scene R m m' := by
  have hbind : MirrorsBy scene R (m >>= pure) (m' >>= pure) :=
    mirrors_new hrun hrun' hvalue' hstep hreporter hlater fun s _ => mirrors_pure (h s)
  rwa [bind_pure, bind_pure] at hbind

/-- A node that is synthesized has the same number on both sides. -/
theorem mirrors_synthesizeNode (type : GoType) (span span' : Span) :
    MirrorsBy scene (fun ν ν' => ν'.id = ν.id ∧ ν.span = span ∧ ν'.span = span')
      (synthesizeNode type span) (synthesizeNode type span') :=
  mirrors_made (runIn_synthesizeNode · · type span) (runIn_synthesizeNode · · type span')
    (fun _ _ _ => rfl) (fun _ _ _ => rfl) (fun _ => rfl)
    (fun _ => .of_new rfl fun _ hne => .insertType hne type) fun _ => ⟨rfl, rfl, rfl⟩

/-- Written at the same place, it is the same node. -/
theorem mirrors_newNode (type : GoType) (span : Span) :
    Mirrors scene (synthesizeNode type span) (synthesizeNode type span) := by
  refine (mirrors_synthesizeNode type span span).imp ?_
  rintro ⟨_, _⟩ ⟨_, _⟩ ⟨rfl, rfl, rfl⟩
  rfl

theorem runIn_synthesizeUse (env : Env) (s : FunctionState) (name : String) (obj : Object)
    (type : GoType) (span : Span) :
    (synthesizeUse name obj type span).runIn env s =
      (.ok (.ident ⟨s.nextSynthetic, span⟩ name), s.newSyntheticId.2.modifyOverlay fun o =>
        { o with types := o.types.insert s.nextSynthetic type,
                 uses := o.uses.insert s.nextSynthetic obj }) := rfl

/-- So has a use, of the same object. -/
theorem mirrors_synthesizeUse (name : String) (obj : Object) (type : GoType) (span span' : Span) :
    MirrorsBy scene
      (fun e e' => ∃ id, e = .ident ⟨id, span⟩ name ∧ e' = .ident ⟨id, span'⟩ name)
      (synthesizeUse name obj type span) (synthesizeUse name obj type span') :=
  mirrors_made (runIn_synthesizeUse · · name obj type span)
    (runIn_synthesizeUse · · name obj type span') (fun _ _ _ => rfl) (fun _ _ _ => rfl)
    (fun _ => rfl)
    (fun _ => .of_new rfl fun _ hne => (Overlay.AgreesAt.insertType hne type).trans (.insertUse hne obj))
    fun _ => ⟨_, rfl, rfl⟩

end

end GoLua
