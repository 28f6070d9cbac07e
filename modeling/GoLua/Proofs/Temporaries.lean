import GoLua.Proofs.ResumeSteps
import Mathlib.Data.List.Nodup
import Mathlib.Data.List.Perm.Subperm

/-!
# Temporaries are assigned once

A temporary is minted with the statement that assigns it, so it is tempting to say that it has one
writer and be done. But names come from several hints and from the boxes of accessors, and the
statements are cut off, moved and put into branches afterwards.

Two things carry the argument. A name is minted with the next number of the counter, and names with
other numbers are other names (`minted_injective`). And what a run adds to the pending statements
assigns nothing but properties of host objects and the names that it minted, each of them at most
once (`Gains`): moving statements about changes the order of these targets only, and a guard adds its
result to those of its branch.

What a suspending call or a guard assigns is always a temporary. That a plain assignment to anything
else writes a property is known from the record of the statements as they were made: such an
assignment was made for a method of a host object, and assigns a property of that object
(`Statement.Owned`).

`Session.temporaries_assigned_once` says it of all that happens to a state.
-/

namespace GoLua

/-! ### The targets of statements -/

mutual

/-- What a statement assigns, its branch included. -/
def Statement.targets : Statement → List String
  | .assign target _ => [target]
  | .callAssign target _ _ => target.toList
  | .guard result _ _ body _ => result :: targetsOf body
termination_by structural s => s

/-- What several statements assign. -/
def targetsOf : List Statement → List String
  | [] => []
  | s :: ss => s.targets ++ targetsOf ss
termination_by structural ss => ss

end

/-- Targets are collected in order. -/
theorem targetsOf_append (ss ts : List Statement) :
    targetsOf (ss ++ ts) = targetsOf ss ++ targetsOf ts := by
  induction ss with
  | nil => rfl
  | cons s ss ih => simp only [List.cons_append, targetsOf, ih, List.append_assoc]

@[simp] theorem targetsOf_singleton (s : Statement) : targetsOf [s] = s.targets :=
  List.append_nil s.targets

mutual

/-- A statement with those of its branch. -/
def Statement.flattened : Statement → List Statement
  | .guard result condition isAnd body value =>
    .guard result condition isAnd body value :: flattenedOf body
  | .assign target value => [.assign target value]
  | .callAssign target call step => [.callAssign target call step]
termination_by structural s => s

/-- All statements there are in a list, those of branches included. -/
def flattenedOf : List Statement → List Statement
  | [] => []
  | s :: ss => s.flattened ++ flattenedOf ss
termination_by structural ss => ss

end

/-- So are the statements below guards. -/
theorem flattenedOf_append (ss ts : List Statement) :
    flattenedOf (ss ++ ts) = flattenedOf ss ++ flattenedOf ts := by
  induction ss with
  | nil => rfl
  | cons s ss ih => simp only [List.cons_append, flattenedOf, ih, List.append_assoc]

/-! ### Whose targets they are -/

/-- An assignment that was made for a method of a host object, to a property of that object. -/
def WritesProperty (made : List Made) (target value : String) : Prop :=
  ∃ m ∈ made, ∃ write, m.statement = .assign target value ∧ m.write = some write ∧
    IsPropertyOf write.object target

/-- A statement assigns a temporary, if it assigns anything; only what a method of a host object has
made may assign a property instead. -/
def Statement.Owned (temporaries : List String) (made : List Made) : Statement → Prop
  | .assign target value => target ∈ temporaries ∨ WritesProperty made target value
  | .callAssign target _ _ => ∀ name ∈ target, name ∈ temporaries
  | .guard result _ _ _ _ => result ∈ temporaries

/-- More temporaries and more records do no harm. -/
theorem Statement.Owned.mono {temporaries temporaries' : List String} {made made' : List Made}
    {stmt : Statement} (h : stmt.Owned temporaries made) (htemporaries : temporaries ⊆ temporaries')
    (hmade : made ⊆ made') : stmt.Owned temporaries' made' := by
  cases stmt with
  | assign target value =>
    refine h.imp (fun hmem => htemporaries hmem) ?_
    rintro ⟨m, hm, hwrite⟩
    exact ⟨m, hmade hm, hwrite⟩
  | callAssign target call step => exact fun name hname => htemporaries (h name hname)
  | guard result condition isAnd body value => exact htemporaries h

/-! ### What is minted and assigned -/

/-- A name that was minted while the counter went from `low` to `high`. -/
def Minted (low high : Nat) (name : String) : Prop :=
  ∃ hint n, isHint hint ∧ low ≤ n ∧ n < high ∧ name = hint ++ toString n

namespace Minted

variable {low mid high : Nat} {name name' : String}

/-- A name that is minted late is minted in any longer span. -/
theorem mono (h : Minted mid high name) (hlow : low ≤ mid) : Minted low high name := by
  obtain ⟨hint, n, hhint, hn, hn', hname⟩ := h
  exact ⟨hint, n, hhint, Nat.le_trans hlow hn, hn', hname⟩

theorem mono_right (h : Minted low mid name) (hhigh : mid ≤ high) : Minted low high name := by
  obtain ⟨hint, n, hhint, hn, hn', hname⟩ := h
  exact ⟨hint, n, hhint, hn, Nat.lt_of_lt_of_le hn' hhigh, hname⟩

/-- The next name. -/
theorem next {hint : String} (h : isHint hint) (n : Nat) :
    Minted n (n + 1) (hint ++ toString n) :=
  ⟨hint, n, h, Nat.le_refl n, Nat.lt_succ_self n, rfl⟩

/-- Names that were minted at different times are different. -/
theorem ne (h : Minted low mid name) (h' : Minted mid high name') : name ≠ name' := by
  obtain ⟨hint, n, hhint, -, hn, rfl⟩ := h
  obtain ⟨hint', n', hhint', hn', -, rfl⟩ := h'
  intro heq
  obtain ⟨-, rfl⟩ := minted_injective hhint hhint' heq
  omega

/-- A minted name is a word, and a property has a bracket or a dot. -/
theorem not_isProperty (h : Minted low high name) : ¬ IsProperty name := by
  obtain ⟨hint, n, hhint, -, -, rfl⟩ := h
  intro hproperty
  obtain ⟨c, hc, hplain⟩ := hproperty.exists_not_isNameChar
  rw [minted_named hhint n c hc] at hplain
  cases hplain

end Minted

/-- While the counter went from `low` to `high`, the temporaries `new` were minted, `made` was recorded,
and statements were added that assign properties, and of the temporaries each at most once. -/
structure Gains (low high : Nat) (new : List String) (made : List Made) (added : List Statement) :
    Prop where
  le : low ≤ high
  minted : ∀ name ∈ new, Minted low high name
  distinct : new.Nodup
  targets : ∃ properties, (∀ target ∈ properties, IsProperty target) ∧
    (targetsOf added).Subperm (properties ++ new)
  owned : ∀ stmt ∈ flattenedOf added, stmt.Owned new made

namespace Gains

variable {low mid high : Nat} {new new' : List String} {made made' : List Made}
  {added added' : List Statement}

theorem nothing (h : low ≤ high) : Gains low high [] [] [] where
  le := h
  minted _ h := absurd h List.not_mem_nil
  distinct := .nil
  targets := ⟨[], fun _ h => absurd h List.not_mem_nil, List.nil_subperm⟩
  owned _ h := absurd h List.not_mem_nil

/-- A temporary has been minted that no statement assigns. -/
theorem name {hint : String} (h : isHint hint) (n : Nat) :
    Gains n (n + 1) [hint ++ toString n] [] [] where
  le := Nat.le_succ n
  minted _ hname := List.mem_singleton.mp hname ▸ .next h n
  distinct := List.nodup_singleton _
  targets := ⟨[], fun _ h => absurd h List.not_mem_nil, List.nil_subperm⟩
  owned _ h := absurd h List.not_mem_nil

/-- A method of a host object assigns a property of the object, and that is recorded. -/
theorem property {inside : List NodeId} {write : HostWrite} {target : String}
    (h : IsPropertyOf write.object target) (value : String) (n : Nat) :
    Gains n n [] [⟨inside, .assign target value, none, some write⟩] [.assign target value] where
  le := Nat.le_refl n
  minted _ h := absurd h List.not_mem_nil
  distinct := .nil
  targets := by
    refine ⟨[target], fun t ht => ?_, List.Subperm.refl _⟩
    obtain rfl := List.mem_singleton.mp ht
    exact ⟨write.object, h⟩
  owned stmt hstmt := by
    obtain rfl := List.mem_singleton.mp hstmt
    exact .inr ⟨_, List.mem_singleton_self _, write, rfl, rfl, h⟩

/-- Gains add up over two spans. -/
theorem append (h : Gains low mid new made added) (h' : Gains mid high new' made' added') :
    Gains low high (new ++ new') (made' ++ made) (added ++ added') := by
  obtain ⟨properties, hproperties, htargets⟩ := h.targets
  obtain ⟨properties', hproperties', htargets'⟩ := h'.targets
  refine ⟨Nat.le_trans h.le h'.le, fun name hname => ?_, ?_, ⟨properties ++ properties', ?_, ?_⟩,
    fun stmt hstmt => ?_⟩
  · rcases List.mem_append.mp hname with hname | hname
    · exact (h.minted name hname).mono_right h'.le
    · exact (h'.minted name hname).mono h.le
  · refine List.nodup_append.mpr ⟨h.distinct, h'.distinct, fun a ha b hb => ?_⟩
    exact (h.minted a ha).ne (h'.minted b hb)
  · exact fun target ht => (List.mem_append.mp ht).elim (hproperties _) (hproperties' _)
  · rw [targetsOf_append]
    refine (htargets.append htargets').trans (List.Perm.subperm ?_)
    -- The properties of both come together, and so do the names.
    have hswap : (new ++ properties').Perm (properties' ++ new) := List.perm_append_comm
    simpa only [List.append_assoc] using (hswap.append_right new').append_left properties
  · rw [flattenedOf_append] at hstmt
    rcases List.mem_append.mp hstmt with hstmt | hstmt
    · exact (h.owned stmt hstmt).mono (List.subset_append_left _ _) (List.subset_append_right _ _)
    · exact (h'.owned stmt hstmt).mono (List.subset_append_right _ _) (List.subset_append_left _ _)

/-- The order of two groups of statements does not matter. -/
theorem swap {moves : List Statement} (h : Gains low high new made (added ++ moves)) :
    Gains low high new made (moves ++ added) := by
  obtain ⟨properties, hproperties, htargets⟩ := h.targets
  refine ⟨h.le, h.minted, h.distinct, ⟨properties, hproperties, ?_⟩, fun stmt hstmt => ?_⟩
  · rw [targetsOf_append] at htargets ⊢
    exact List.perm_append_comm.subperm.trans htargets
  · refine h.owned stmt ?_
    rw [flattenedOf_append] at hstmt ⊢
    exact List.mem_append.mpr (List.mem_append.mp hstmt).symm

/-- A temporary is assigned by the statement that it was minted for. -/
theorem assigned {hint : String} (h : isHint hint) (n : Nat) {m : Made}
    (htargets : m.statement.targets = [hint ++ toString n])
    (hflat : m.statement.flattened = [m.statement])
    (howned : m.statement.Owned [hint ++ toString n] [m]) :
    Gains n (n + 1) [hint ++ toString n] [m] [m.statement] where
  le := Nat.le_succ n
  minted := (name h n).minted
  distinct := List.nodup_singleton _
  targets := by
    refine ⟨[], fun _ h => absurd h List.not_mem_nil, ?_⟩
    rw [targetsOf_singleton, htargets]
    exact List.Subperm.refl _
  owned stmt hstmt := by
    rw [flattenedOf, hflat] at hstmt
    obtain rfl := List.mem_singleton.mp hstmt
    exact howned

/-- **A guard adds its result** to what its branch assigns. -/
theorem guard (h : Gains low high new made added) (inside : List NodeId) (id : NodeId)
    (condition : String) (isAnd : Bool) (value : String) :
    Gains low (high + 1) (new ++ ["_v" ++ toString high])
      (⟨inside, .guard ("_v" ++ toString high) condition isAnd added value, some id, none⟩ :: made)
      [.guard ("_v" ++ toString high) condition isAnd added value] := by
  obtain ⟨properties, hproperties, htargets⟩ := h.targets
  have hresult : Gains high (high + 1) ["_v" ++ toString high] [] [] := name (by decide) high
  -- All but the statements is as if the name had been minted for nothing.
  have hboth := h.append hresult
  refine ⟨hboth.le, hboth.minted, hboth.distinct, ⟨properties, hproperties, ?_⟩, fun stmt hstmt => ?_⟩
  · rw [targetsOf_singleton, Statement.targets, ← List.append_assoc]
    exact (List.perm_append_singleton _ _).symm.subperm.trans (htargets.append (List.Subperm.refl _))
  · rw [flattenedOf, Statement.flattened, flattenedOf, List.append_nil] at hstmt
    rcases List.mem_cons.mp hstmt with rfl | hstmt
    · exact List.mem_append_right _ (List.mem_singleton_self _)
    · exact (h.owned stmt hstmt).mono (List.subset_append_left _ _) (List.subset_cons_self _ _)

/-- What is assigned is a property or one of the names. -/
theorem isProperty_or_mem (h : Gains low high new made added) {target : String}
    (ht : target ∈ targetsOf added) : target ∈ new ∨ IsProperty target := by
  obtain ⟨properties, hproperties, htargets⟩ := h.targets
  rcases List.mem_append.mp (htargets.subset ht) with ht | ht
  · exact .inr (hproperties target ht)
  · exact .inl ht

/-- No name is assigned twice. -/
theorem count_le_one (h : Gains low high new made added) {name : String} (hname : name ∈ new) :
    (targetsOf added).count name ≤ 1 := by
  obtain ⟨properties, hproperties, htargets⟩ := h.targets
  have hnone : properties.count name = 0 :=
    List.count_eq_zero.mpr fun hmem => (h.minted name hname).not_isProperty (hproperties name hmem)
  calc (targetsOf added).count name
      ≤ (properties ++ new).count name := htargets.count_le name
    _ = new.count name := by rw [List.count_append, hnone, Nat.zero_add]
    _ ≤ 1 := List.nodup_iff_count_le_one.mp h.distinct name

end Gains

/-! ### What a run adds -/

/-- What a run has added to the temporaries, to the records and to the pending statements. -/
def Gained (s s' : FunctionState) : Prop :=
  ∃ new made added, s'.temporaries = s.temporaries ++ new ∧ s'.made = made ++ s.made ∧
    s'.pending = s.pending ++ added ∧ Gains s.nextName s'.nextName new made added

namespace Gained

variable {s s₁ s₂ s' : FunctionState}

/-- A lowering that makes none and leaves none gains nothing. -/
theorem of_still (htemporaries : s'.temporaries = s.temporaries) (hmade : s'.made = s.made)
    (hpending : s'.pending = s.pending) (hnext : s.nextName ≤ s'.nextName) : Gained s s' :=
  ⟨[], [], [], by rw [htemporaries, List.append_nil], hmade, by rw [hpending, List.append_nil],
    .nothing hnext⟩

/-- Gains add up along a run. -/
theorem trans (h : Gained s s₁) (h' : Gained s₁ s') : Gained s s' := by
  obtain ⟨new, made, added, hnew, hmade, hadded, hgains⟩ := h
  obtain ⟨new', made', added', hnew', hmade', hadded', hgains'⟩ := h'
  refine ⟨new ++ new', made' ++ made, added ++ added', ?_, ?_, ?_, hgains.append hgains'⟩
  · rw [hnew', hnew, List.append_assoc]
  · rw [hmade', hmade, List.append_assoc]
  · rw [hadded', hadded, List.append_assoc]

/-- A statement has been left for the temporary that it assigns. -/
theorem of_assigned {hint : String} {m : Made} (hhint : isHint hint)
    (htemporaries : s'.temporaries = s.temporaries ++ [hint ++ toString s.nextName])
    (hmade : s'.made = m :: s.made) (hpending : s'.pending = s.pending ++ [m.statement])
    (hnext : s'.nextName = s.nextName + 1)
    (htargets : m.statement.targets = [hint ++ toString s.nextName])
    (hflat : m.statement.flattened = [m.statement])
    (howned : m.statement.Owned [hint ++ toString s.nextName] [m]) : Gained s s' :=
  ⟨_, [m], _, htemporaries, hmade, hpending, hnext ▸ .assigned hhint _ htargets hflat howned⟩

/-- The guard takes the place of its branch. -/
theorem guardRight (h : Gained s s₁) (h' : Gained s₁ s₂) (env : Env) (id : NodeId) (op : BinaryOp)
    (condition value : String) :
    Gained s (s₂.guardRight env id op s₁.pending.length condition value).2 := by
  refine h.trans ?_
  obtain ⟨new, made, body, hnew, hmade, hbody, hgains⟩ := h'
  obtain ⟨hguard, hrecord⟩ := s₂.guardRight_of_append hbody env id op condition value
  refine ⟨_, _, _, ?_, ?_, hguard,
    hgains.guard env.inside id condition (op == .logicalAnd) value⟩
  · change s₂.temporaries ++ ["_v" ++ toString s₂.nextName] = _
    rw [hnew, List.append_assoc]
  · rw [hrecord, hmade, List.cons_append]

/-- Moves come to stand before the statements of a part, which changes their order only. -/
theorem insert (h : Gained s s₁) (hmoves : Gained (s₁.splitAt s.pending.length).2 s₂) :
    Gained s (s₂.putBack (s₁.splitAt s.pending.length).1) := by
  obtain ⟨new, made, added, hnew, hmade, hadded, hgains⟩ := h
  rw [s₁.splitAt_of_append hadded] at hmoves ⊢
  obtain ⟨new', made', moves, hnew', hmade', hmoved, hgains'⟩ := hmoves
  refine ⟨new ++ new', made' ++ made, moves ++ added, ?_, ?_, ?_, (hgains.append hgains').swap⟩
  · change s₂.temporaries = _
    rw [hnew', hnew, List.append_assoc]
  · change s₂.made = _
    rw [hmade', hmade, List.append_assoc]
  · change s₂.pending ++ added = _
    rw [hmoved, List.append_assoc]

end Gained

/-- **Gaining.** Every step of lowering assigns what it mints, and no more than that and
properties. -/
def gaining (p : Prices) : RunLaw p where
  rel _ _ _ s s' := Gained s s'
  stay := .of_still rfl rfl rfl (Nat.le_refl _)
  spend h _ := h
  trans h h' := h.trans h'
  newLocal _ := .of_still rfl rfl rfl (Nat.le_succ _)
  accessorBox {_ s} key hkey := by
    unfold FunctionState.accessorBox
    split
    · exact .of_still rfl rfl rfl (Nat.le_refl _)
    · exact ⟨_, [], [], rfl, rfl, (List.append_nil _).symm, .name hkey _⟩
  reportError _ _ := .of_still rfl rfl rfl (Nat.le_refl _)
  newNode _ _ := .of_still rfl rfl rfl (Nat.le_refl _)
  use _ _ _ _ := .of_still rfl rfl rfl (Nat.le_refl _)
  select _ _ _ _ := .of_still rfl rfl rfl (Nat.le_refl _)
  mark _ _ _ := .of_still rfl rfl rfl (Nat.le_refl _)
  visit _ := .of_still rfl rfl rfl (Nat.le_refl _)
  request _ _ := .of_still rfl rfl rfl (Nat.le_refl _)
  keep _ _ hhint :=
    .of_assigned hhint rfl rfl rfl rfl rfl rfl (.inl (List.mem_singleton_self _))
  assign {_ s} write target value htarget :=
    ⟨[], _, _, (List.append_nil _).symm, rfl, rfl, .property htarget value s.nextName⟩
  callStatement {env s} id call _ := by
    -- Nothing is assigned: what a call without results leaves is owned by default.
    refine ⟨[], [_], [_], (List.append_nil _).symm, rfl, rfl, Nat.le_refl _,
      fun _ h => absurd h List.not_mem_nil, .nil,
      ⟨[], fun _ h => absurd h List.not_mem_nil, List.nil_subperm⟩, fun stmt hstmt => ?_⟩
    obtain rfl := List.mem_singleton.mp hstmt
    exact fun _ h => nomatch h
  callValue _ _ _ := by
    refine .of_assigned (by decide) rfl rfl rfl rfl rfl rfl fun name hname => ?_
    obtain rfl := Option.mem_some.mp hname
    exact List.mem_singleton_self _
  native _ h h' _ := h.trans h'
  guard id op condition value h h' := h.guardRight h' _ id op condition value
  stuck _ h := h
  insert h h' := h.insert h'

/-- A run gains what it mints, whether it succeeds or not. -/
theorem Gained.of_request (request : Request) (env : Env) (s : FunctionState) :
    Gained s (request.run.runIn env s).2 := by
  obtain ⟨w, hbuilt⟩ := request.built (freePrices env s)
  have hself := (gaining (freePrices env s)).holds_within request.depth
  exact (RunLaw.holds_of_built hself hbuilt env s (ready_freePrices env s) _ _ rfl).rel

/-! ### Sessions -/

namespace Session

/-- All temporaries there have been are accounted for by the statements there have been. -/
def Accounted (session : Session) : Prop :=
  Gains 0 session.state.nextName session.state.temporaries session.state.made session.statements

/-- What a run gains is gained by the session; draining moves statements along. -/
theorem Accounted.act {session : Session} (h : session.Accounted) (action : Action) :
    (session.act action).Accounted := by
  -- A request gains what the statements show; draining moves statements out of the state, which
  -- changes nothing in their list.
  cases action with
  | run env request =>
    obtain ⟨new, made, added, hnew, hmade, hadded, hgains⟩ :=
      Gained.of_request request env session.state
    have hstatements : (session.act (.run env request)).statements =
        session.statements ++ added := by
      simp only [statements, Session.act, hadded, List.append_assoc]
    have htemporaries : (session.act (.run env request)).state.temporaries =
        session.state.temporaries ++ new := hnew
    have hrecords : (session.act (.run env request)).state.made = made ++ session.state.made :=
      hmade
    unfold Accounted
    rw [hstatements, htemporaries, hrecords]
    exact Gains.append h hgains
  | drain =>
    have hstatements : (session.act .drain).statements = session.statements :=
      List.append_nil _
    unfold Accounted
    rw [hstatements]
    exact h

/-- So the account holds after a session. -/
theorem Accounted.session {session : Session} (h : session.Accounted) (actions : List Action) :
    (actions.foldl Session.act session).Accounted := by
  induction actions generalizing session with
  | nil => exact h
  | cons action actions ih => exact ih (h.act action)

theorem accounted_new : Accounted {} :=
  .nothing (Nat.le_refl 0)

/-- **Temporaries are assigned once.** Whatever runs there have been on a new state, with whatever
outcomes and with the pending statements drained at any time, and all statements of branches counted
among the statements:

* the temporaries are all different;
* what a call or a guard assigns is a temporary, and what a plain assignment assigns is one too,
  unless it was made for `Set`, `SetIndex` or `Delete` of a host object and assigns a property of
  that object;
* no temporary is a property, and none is assigned twice. -/
theorem temporaries_assigned_once (actions : List Action) :
    (actions.foldl act {}).state.temporaries.Nodup ∧
      (∀ stmt ∈ flattenedOf (actions.foldl act {}).statements,
        stmt.Owned (actions.foldl act {}).state.temporaries (actions.foldl act {}).state.made) ∧
      ∀ name ∈ (actions.foldl act {}).state.temporaries,
        ¬ IsProperty name ∧ (targetsOf (actions.foldl act {}).statements).count name ≤ 1 := by
  have haccount : (actions.foldl act {}).Accounted := accounted_new.session actions
  refine ⟨haccount.distinct, haccount.owned, fun name hname => ?_⟩
  exact ⟨(haccount.minted name hname).not_isProperty, haccount.count_le_one hname⟩

end Session

end GoLua
