import GoLua.Proofs.Balanced
import GoLua.Proofs.Text.Names

/-!
# Values are assigned before they are read

The values of calls, connectives and parts of sequences are kept in temporaries, and texts read them by
name. A text moves about after it has been built: in front of statements, into temporaries of its own,
into the branch of a guard together with the statements that it relies on. At the end each text still has
to stand where what it reads has been assigned: behind the statement in the same list or in a list
around it, and never behind a guard in whose branch it was assigned, since that may not have run.

That lowering does so is the soundness of states, as long as the program has names of its own
(`Vocabulary.own`). The keys of properties belong to these names, because a key that Lua can spell is
written behind a dot (`Request.propertyAndReceived_not_inOrder`). Here it is said in terms of the texts
themselves (`Scoped.inOrder`). That nothing gets out of a branch follows, since no temporary is
assigned twice (`BranchIn.not_reads`).
-/

namespace GoLua

open Lua

/-! ### Reading in order -/

/-- The literals of a text are closed, and all values that it reads are assigned. The temporaries that
hold values are those with a name of a value, since the boxes of accessors have other hints. -/
structure ReadsOnly (temporaries assigned : List String) (text : String) : Prop where
  closed : (outsideStrings text.toList).isSome
  reads : ∀ name ∈ temporaries, isValueName name.toList → ReadsName text name → name ∈ assigned

mutual

/-- All texts of a statement read what is assigned before, or in its branch for the value of a guard. A
target is itself a temporary, or the text of a property. -/
def Statement.InOrder (temporaries assigned : List String) : Statement → Prop
  | .assign target value =>
    (target ∈ temporaries ∨ ReadsOnly temporaries assigned target) ∧
      ReadsOnly temporaries assigned value
  | .callAssign target call _ =>
    (∀ name ∈ target, name ∈ temporaries) ∧ ReadsOnly temporaries assigned call
  | .guard result condition _ body value =>
    result ∈ temporaries ∧ ReadsOnly temporaries assigned condition ∧
      GoLua.InOrder temporaries assigned body ∧
      ReadsOnly temporaries (assigned ++ resultsOf body) value
termination_by structural s => s

/-- All texts of several statements read what is assigned before. -/
def InOrder (temporaries assigned : List String) : List Statement → Prop
  | [] => True
  | s :: ss =>
    s.InOrder temporaries assigned ∧ GoLua.InOrder temporaries (assigned ++ s.results) ss
termination_by structural ss => ss

end

section

variable {temporaries assigned : List String} {known : String → Prop}

/-- A second list of statements reads what the first one has assigned. -/
theorem inOrder_append {ss ts : List Statement} :
    InOrder temporaries assigned (ss ++ ts) ↔
      InOrder temporaries assigned ss ∧ InOrder temporaries (assigned ++ resultsOf ss) ts := by
  induction ss generalizing assigned with
  | nil => simp [InOrder, resultsOf]
  | cons s ss ih =>
    rw [List.cons_append, InOrder, InOrder, ih, resultsOf_cons, List.append_assoc, and_assoc]

/-! ### Scopes are in order -/

/-- A text in the grammar reads what is known. -/
theorem ReadsOnly.of_emits {flat : Bool} {text : String} (h : Emits .own known flat text)
    (hknown : ∀ name ∈ temporaries, known name → name ∈ assigned) :
    ReadsOnly temporaries assigned text := by
  obtain ⟨out, hout, hvalues⟩ := h.hasOnly
  refine ⟨by rw [hout]; rfl, fun name hname hvalue hreads => ?_⟩
  obtain ⟨out', hout', hhas⟩ := hreads
  obtain rfl := Option.some.inj (hout.symm.trans hout')
  exact hknown name hname (hvalues name hvalue hhas)

/-- What has been assigned is known, and nothing else is. -/
theorem mem_append_of_knowing (hknown : ∀ name ∈ temporaries, known name → name ∈ assigned)
    (names : List String) :
    ∀ name ∈ temporaries, knowing known names name → name ∈ assigned ++ names :=
  fun name hname h => List.mem_append.mpr (h.imp_left (hknown name hname))

/-- A target that is a name is no property. -/
theorem IsNamed.mem_temporaries {target : String} (h : IsNamed target)
    (htarget : target ∈ temporaries ∨ IsProperty target) : target ∈ temporaries := by
  refine htarget.resolve_right fun hproperty => ?_
  obtain ⟨c, hc, hplain⟩ := hproperty.exists_not_isNameChar
  rw [h c hc] at hplain
  cases hplain

mutual

/-- A statement that is in scope is in order. -/
theorem Statement.Scoped.inOrder {temporaries assigned : List String} {known : String → Prop}
    (s : Statement) (h : s.Scoped .own known)
    (hknown : ∀ name ∈ temporaries, known name → name ∈ assigned)
    (htargets : ∀ target ∈ s.targets, target ∈ temporaries ∨ IsProperty target) :
    s.InOrder temporaries assigned := by
  -- One case for each statement; a guard assigns its result behind its body, so the body is in
  -- order on its own.
  cases s with
  | assign target value =>
    have htarget := htargets target (List.mem_singleton_self _)
    exact ⟨h.1.imp (·.mem_temporaries htarget) (.of_emits · hknown), .of_emits h.2 hknown⟩
  | callAssign target call step =>
    have hnames : ∀ name ∈ target, name ∈ temporaries := fun name hname =>
      (h.1 name hname).mem_temporaries (htargets name (Option.mem_toList.mpr hname))
    exact ⟨hnames, .of_emits h.2 hknown⟩
  | guard result condition isAnd body value =>
    obtain ⟨hresult, hcondition, hbody, hvalue⟩ := h
    refine ⟨hresult.mem_temporaries (htargets result List.mem_cons_self), .of_emits hcondition hknown,
      ?_, .of_emits hvalue (mem_append_of_knowing hknown _)⟩
    exact Scoped.inOrder body hbody hknown fun target ht =>
      htargets target (List.mem_cons_of_mem _ ht)
termination_by structural s

/-- Statements in scope are in order. -/
theorem Scoped.inOrder {temporaries assigned : List String} {known : String → Prop}
    (ss : List Statement) (h : Scoped .own known ss)
    (hknown : ∀ name ∈ temporaries, known name → name ∈ assigned)
    (htargets : ∀ target ∈ targetsOf ss, target ∈ temporaries ∨ IsProperty target) :
    InOrder temporaries assigned ss := by
  cases ss with
  | nil => trivial
  | cons s ss =>
    refine ⟨Statement.Scoped.inOrder s h.1 hknown fun target ht => ?_,
      Scoped.inOrder ss h.2 (mem_append_of_knowing hknown _) fun target ht => ?_⟩
    · exact htargets target (List.mem_append_left _ ht)
    · exact htargets target (List.mem_append_right _ ht)
termination_by structural ss

end

end

/-! ### Nothing gets out of a branch -/

/-- `BranchIn ss body outer`: somewhere among the statements `ss`, in branches of others or not, there is
a guard with the branch `body`, and `outer` are the texts of all statements besides those of the branch
and the value of that guard. -/
inductive BranchIn : List Statement → List Statement → List String → Prop where
  | here {before after body : List Statement} {result condition value : String} {isAnd : Bool} :
    BranchIn (before ++ .guard result condition isAnd body value :: after) body
      (textsOf before ++ result :: condition :: textsOf after)
  | inside {before after inner body : List Statement} {outer : List String}
    {result condition value : String} {isAnd : Bool} (h : BranchIn inner body outer) :
    BranchIn (before ++ .guard result condition isAnd inner value :: after) body
      (textsOf before ++ result :: condition :: (outer ++ value :: textsOf after))

/-- What a statement binds is among its targets. -/
theorem Statement.results_subset_targets (s : Statement) : s.results ⊆ s.targets := by
  cases s with
  | assign => exact List.Subset.refl _
  | callAssign => exact List.Subset.refl _
  | guard => exact List.cons_subset_cons _ (List.nil_subset _)

theorem resultsOf_subset_targetsOf (ss : List Statement) : resultsOf ss ⊆ targetsOf ss := by
  induction ss with
  | nil => exact List.Subset.refl _
  | cons s ss ih =>
    rw [resultsOf_cons]
    exact List.append_subset.mpr ⟨fun _ h => List.mem_append_left _ (s.results_subset_targets h),
      fun _ h => List.mem_append_right _ (ih h)⟩

/-- What is assigned in a branch is assigned among the statements around it. -/
theorem BranchIn.targetsOf_subset {ss body : List Statement} {outer : List String}
    (h : BranchIn ss body outer) : targetsOf body ⊆ targetsOf ss := by
  intro name hname
  induction h with
  | here => simp [targetsOf_append, targetsOf, Statement.targets, hname]
  | inside _ ih => simp [targetsOf_append, targetsOf, Statement.targets, ih hname]

/-- A name that is assigned once, and in a branch, is assigned nowhere else. -/
theorem count_of_mem_branch {before after inner : List Statement} {result condition value : String}
    {isAnd : Bool} {name : String}
    (hcount : (targetsOf (before ++ .guard result condition isAnd inner value :: after)).count name ≤ 1)
    (hname : name ∈ targetsOf inner) :
    name ∉ targetsOf before ∧ name ≠ result ∧ (targetsOf inner).count name ≤ 1 ∧
      name ∉ targetsOf after := by
  have hpos : 0 < (targetsOf inner).count name := List.count_pos_iff.mpr hname
  simp only [targetsOf_append, targetsOf, Statement.targets, List.count_append, List.count_cons] at hcount
  refine ⟨fun h => ?_, fun h => ?_, by omega, fun h => ?_⟩
  · have := List.count_pos_iff.mpr h
    omega
  · subst h
    simp only [beq_self_eq_true, if_true] at hcount
    omega
  · have := List.count_pos_iff.mpr h
    omega

/-- One of the temporaries that hold values, where all temporaries are names. -/
structure IsValueOf (temporaries : List String) (name : String) : Prop where
  named : ∀ text ∈ temporaries, IsNamed text
  mem : name ∈ temporaries
  value : isValueName name.toList

section

variable {temporaries assigned : List String} {name text : String}

/-- A text that is a name reads no other. -/
theorem IsNamed.eq_of_readsName (h : IsNamed text) (hreads : ReadsName text name) : name = text := by
  obtain ⟨out, hout, hhas⟩ := hreads
  have hdouble : '"' ∉ text.toList := fun hmem => by cases h _ hmem
  have hsingle : '\x27' ∉ text.toList := fun hmem => by cases h _ hmem
  obtain rfl := Option.some.inj ((outsideStrings_of_not_mem hdouble hsingle).symm.trans hout)
  exact String.toList_injective (hhas.eq_of_isNameChar h)

namespace IsValueOf

/-- Another temporary does not read the value. -/
theorem not_readsName_of_mem (h : IsValueOf temporaries name) (htext : text ∈ temporaries)
    (hne : name ≠ text) : ¬ ReadsName text name :=
  fun hreads => hne ((h.named text htext).eq_of_readsName hreads)

/-- What is not assigned is not read. -/
theorem not_readsName (h : IsValueOf temporaries name) (hassigned : name ∉ assigned)
    (htext : ReadsOnly temporaries assigned text) : ¬ ReadsName text name :=
  fun hreads => hassigned (htext.reads name h.mem h.value hreads)

end IsValueOf

mutual

/-- A value that is not assigned before a statement, nor by it, is not read in it. -/
theorem Statement.InOrder.not_readsName {temporaries assigned : List String} {name : String}
    (s : Statement) (h : s.InOrder temporaries assigned) (hname : IsValueOf temporaries name)
    (hassigned : name ∉ assigned) (htargets : name ∉ s.targets) :
    ∀ text ∈ s.texts, ¬ ReadsName text name := by
  cases s with
  | assign target value =>
    have hne : name ≠ target := by simpa [Statement.targets] using htargets
    simp only [Statement.texts, List.forall_mem_cons]
    exact ⟨h.1.elim (hname.not_readsName_of_mem · hne) (hname.not_readsName hassigned),
      hname.not_readsName hassigned h.2, fun _ h => (nomatch h)⟩
  | callAssign target call step =>
    intro text htext
    rcases List.mem_append.mp htext with htext | htext
    · refine hname.not_readsName_of_mem (h.1 text (Option.mem_toList.mp htext)) ?_
      rintro rfl
      exact htargets htext
    · obtain rfl := List.mem_singleton.mp htext
      exact hname.not_readsName hassigned h.2
  | guard result condition isAnd body value =>
    obtain ⟨hresult, hcondition, hbody, hvalue⟩ := h
    obtain ⟨hne, hbodyTargets⟩ := List.ne_and_not_mem_of_not_mem_cons htargets
    -- The value of a guard is read behind its branch.
    have hinside : name ∉ assigned ++ resultsOf body :=
      List.not_mem_append hassigned fun h => hbodyTargets (resultsOf_subset_targetsOf body h)
    simp only [Statement.texts, List.forall_mem_cons, List.forall_mem_append]
    exact ⟨hname.not_readsName_of_mem hresult hne, hname.not_readsName hassigned hcondition,
      InOrder.not_readsName body hbody hname hassigned hbodyTargets,
      hname.not_readsName hinside hvalue, fun _ h => (nomatch h)⟩
termination_by structural s

/-- Statements do not read a value that is assigned neither before them nor by them. -/
theorem InOrder.not_readsName {temporaries assigned : List String} {name : String}
    (ss : List Statement) (h : InOrder temporaries assigned ss) (hname : IsValueOf temporaries name)
    (hassigned : name ∉ assigned) (htargets : name ∉ targetsOf ss) :
    ∀ text ∈ textsOf ss, ¬ ReadsName text name := by
  cases ss with
  | nil => exact fun _ h => (nomatch h)
  | cons s ss =>
    have hs : name ∉ s.targets := fun h => htargets (List.mem_append_left _ h)
    have hss : name ∉ targetsOf ss := fun h => htargets (List.mem_append_right _ h)
    have hbehind : name ∉ assigned ++ s.results :=
      List.not_mem_append hassigned fun h => hs (s.results_subset_targets h)
    intro text htext
    exact (List.mem_append.mp htext).elim
      (Statement.InOrder.not_readsName s h.1 hname hassigned hs text)
      (InOrder.not_readsName ss h.2 hname hbehind hss text)
termination_by structural ss

end

/-- A value that is assigned in the branch of a guard, and only there, is not read around the guard. -/
theorem InOrder.not_readsName_around {before after inner : List Statement}
    {result condition value : String} {isAnd : Bool}
    (h : InOrder temporaries assigned (before ++ .guard result condition isAnd inner value :: after))
    (hname : IsValueOf temporaries name) (hassigned : name ∉ assigned)
    (hcount : (targetsOf (before ++ .guard result condition isAnd inner value :: after)).count name ≤ 1)
    (hinner : name ∈ targetsOf inner) :
    name ∉ resultsOf (before ++ .guard result condition isAnd inner value :: after) ∧
      ∀ text ∈ textsOf before ++ result :: condition :: textsOf after, ¬ ReadsName text name := by
  -- The branch is the only one with the name among its targets, so neither side of it has it.
  obtain ⟨hbefore, hne, -, hafter⟩ := count_of_mem_branch hcount hinner
  obtain ⟨hbeforeOrder, ⟨hresult, hcondition, -, -⟩, hafterOrder⟩ := inOrder_append.mp h
  have hresults {ss : List Statement} (h : name ∉ targetsOf ss) : name ∉ resultsOf ss :=
    fun hmem => h (resultsOf_subset_targetsOf ss hmem)
  have hown : name ∉ [result] := by simpa using hne
  have hknown : name ∉ assigned ++ resultsOf before :=
    List.not_mem_append hassigned (hresults hbefore)
  refine ⟨?_, ?_⟩
  · rw [resultsOf_append, resultsOf_cons]
    exact List.not_mem_append (hresults hbefore) (List.not_mem_append hown (hresults hafter))
  · simp only [List.forall_mem_append, List.forall_mem_cons]
    exact ⟨InOrder.not_readsName before hbeforeOrder hname hassigned hbefore,
      hname.not_readsName_of_mem hresult hne, hname.not_readsName hknown hcondition,
      InOrder.not_readsName after hafterOrder hname (List.not_mem_append hknown hown) hafter⟩

/-- **Nothing gets out of a branch.** A value that is assigned in the branch of a guard, and only there, is
read in no text outside of the branch and the value of the guard, and not behind the statements either. -/
theorem BranchIn.not_readsName {ss body : List Statement} {outer : List String}
    (h : BranchIn ss body outer) (hss : InOrder temporaries assigned ss)
    (hname : IsValueOf temporaries name) (hassigned : name ∉ assigned)
    (hcount : (targetsOf ss).count name ≤ 1) (hbody : name ∈ targetsOf body) :
    name ∉ resultsOf ss ∧ ∀ text ∈ outer, ¬ ReadsName text name := by
  induction h generalizing assigned with
  | here => exact hss.not_readsName_around hname hassigned hcount hbody
  | @inside before after inner body outer result condition value isAnd h ih =>
    have hinner := h.targetsOf_subset hbody
    obtain ⟨hbefore, -, honce, -⟩ := count_of_mem_branch hcount hinner
    obtain ⟨-, ⟨-, -, hinnerOrder, hvalue⟩, -⟩ := inOrder_append.mp hss
    have hknown : name ∉ assigned ++ resultsOf before :=
      List.not_mem_append hassigned fun h => hbefore (resultsOf_subset_targetsOf before h)
    -- The branch is inside of another one, and what is assigned in that one stays there as well.
    obtain ⟨hinnerResults, houter⟩ := ih hinnerOrder hknown honce hbody
    obtain ⟨hbehind, htexts⟩ := hss.not_readsName_around hname hassigned hcount hinner
    refine ⟨hbehind, ?_⟩
    simp only [List.forall_mem_append, List.forall_mem_cons] at htexts ⊢
    obtain ⟨hbeforeTexts, hresult, hcondition, hafterTexts⟩ := htexts
    exact ⟨hbeforeTexts, hresult, hcondition, houter,
      hname.not_readsName (List.not_mem_append hknown hinnerResults) hvalue, hafterTexts⟩

end

/-! ### Requests -/

/-- **Values are assigned before they are read.** Suppose that a program with names of its own is lowered
with a new state: no name of a value stands in its names, in the code of its bodies outside of closed
literals, or in a constant that is the key of a property; its names and types do not interfere with
patterns; and its nodes are numbered before those that lowering makes. In all statements that are left behind, and in the text that comes out, the names of
values are read only behind the statements that assign them, in the same list of statements or in a
list around it; and a value that is assigned in a branch is read only there and in the value of the
guard. -/
theorem Request.assigned_before_read {env : Env} {request : Request} {f : Fragment} {s : FunctionState}
    (henv : env.Plain .own) (hrequest : request.Plain .own)
    (hnodes : request.All (Expr.IsOriginal .own env))
    (hrun : request.run.runIn env {} = (.ok f, s)) :
    InOrder s.temporaries [] s.pending ∧ ReadsOnly s.temporaries (resultsOf s.pending) f.text ∧
      ∀ body outer, BranchIn s.pending body outer → ∀ name ∈ targetsOf body,
        isValueName name.toList → ∀ text ∈ f.text :: outer, ¬ ReadsName text name := by
  have hd := Delivers.answer henv hrequest (request.settles_new hnodes) FunctionState.sound_new _ _ hrun
  obtain ⟨new, made, added, hnew, -, hadded, hgains⟩ := Gained.of_request request env {}
  rw [hrun] at hnew hadded hgains
  obtain rfl : s.temporaries = new := hnew
  obtain rfl : s.pending = added := hadded
  -- What is known to start with is hidden, and a hidden name is no temporary.
  have hhidden : ∀ name ∈ s.temporaries, ¬ Hidden s name := by
    rintro name hname ⟨n, -, -, hnone⟩
    exact hnone hname
  have horder : InOrder s.temporaries [] s.pending := by
    refine Scoped.inOrder s.pending hd.sound.pending (fun name hname hgiven => ?_)
      fun target ht => hgains.isProperty_or_mem ht
    exact absurd (hgiven trivial) (hhidden name hname)
  have htext : ReadsOnly s.temporaries (resultsOf s.pending) f.text :=
    .of_emits (hd.result f rfl).text fun name hname hreadable =>
      (hreadable trivial).resolve_left (hhidden name hname)
  refine ⟨horder, htext, fun body outer hbranch name hbody hvalue => ?_⟩
  have hmem : name ∈ s.temporaries := by
    refine IsNamed.mem_temporaries (fun c hc => isNameChar_of_isValueName hvalue c hc) ?_
    exact hgains.isProperty_or_mem (hbranch.targetsOf_subset hbody)
  have hname : IsValueOf s.temporaries name := by
    refine ⟨fun text ht => ?_, hmem, hvalue⟩
    obtain ⟨hint, n, hhint, -, -, rfl⟩ := hgains.minted text ht
    exact minted_named hhint n
  obtain ⟨hresults, houter⟩ := hbranch.not_readsName horder hname List.not_mem_nil
    (hgains.count_le_one hmem) hbody
  exact List.forall_mem_cons.mpr ⟨hname.not_readsName hresults htext, houter⟩

/-- The event of `ready && <-events` is received in a branch. -/
theorem Request.assigned_before_read_readyAndReceived :
    let env : Env := { facts := (readyAndReceived.run {}).2.facts }
    let request := Request.expression (readyAndReceived.run {}).1 none
    ∃ f s, request.run.runIn env {} = (.ok f, s) ∧
      InOrder s.temporaries [] s.pending ∧ ReadsOnly s.temporaries (resultsOf s.pending) f.text ∧
        ∀ body outer, BranchIn s.pending body outer → ∀ name ∈ targetsOf body,
          isValueName name.toList → ∀ text ∈ f.text :: outer, ¬ ReadsName text name := by
  intro env request
  have hok : (request.run.runIn env {}).1.isOk = true := by decide +kernel
  obtain ⟨f, s, hrun⟩ := LowerM.exists_runIn_eq_ok hok
  have henv : env.Plain .own :=
    plain_readyAndReceived (.of_isNameChar (by decide) rfl) (.of_isNameChar (by decide) rfl)
  have hident {n : Node} {name : String} (hid : n.id < firstSyntheticId) :
      (Expr.ident n name).All (Expr.IsOriginal .own env) :=
    .intro ⟨hid, trivial⟩ (List.forall_mem_nil _)
  have hnodes : request.All (Expr.IsOriginal .own env) := by
    change (Expr.binary _ _ (.ident _ _) (.unary _ _ (.ident _ _))).All _
    refine .intro ⟨by decide, trivial⟩ ?_
    simp only [Expr.parts, List.forall_mem_cons]
    refine ⟨hident (by decide), .intro ⟨by decide, trivial⟩ ?_, List.forall_mem_nil _⟩
    simp only [Expr.parts, List.forall_mem_singleton]
    exact hident (by decide)
  have hrequest : request.Plain .own := trivial
  exact ⟨f, s, hrun, assigned_before_read henv hrequest hnodes hrun⟩

/-! ### Keys of properties -/

/-- The type of host objects, and a pointer to it. -/
def hostObject : GoType :=
  .pointer (.named "github.com/gopherjs/gopherjs/js.Object" (.struct []))

/-- `f(o.Get("_r0"), <-ch)`, where `o` is a host object. -/
def propertyAndReceived : Build Expr := do
  let get : Signature :=
    { recv := some hostObject, params := [.basic .string], results := [hostObject] }
  let o ← Build.var "o" hostObject
  let getter ← Build.method o (.func "Get" (.func get)) [0] .methodVal
  let property := Expr.call (← Build.node hostObject) getter [← Build.string "_r0"] false
  let ch ← Build.var "ch" (.chan (.basic .int))
  let received := Expr.unary (← Build.node (.basic .int)) .recv ch
  let f ← Build.func "f" { params := [hostObject, .basic .int], results := [] }
  return .call (← Build.node .void) f [property, received] false

/-- All that the call brings in besides the key are names of its own. -/
theorem plain_propertyAndReceived :
    Env.Plain .own { facts := (propertyAndReceived.run {}).2.facts, config := { host := some {} } } := by
  have hown (name : String) (hname : ∀ c ∈ name.toList, isNameChar c)
      (hvalue : isValueName name.toList = false) (kind : ObjectKind) (type : GoType) :
      Object.Plain .own { name, kind, type } :=
    ⟨.of_isNameChar hname hvalue, fun _ h => (nomatch h)⟩
  have hint : (GoType.basic .int).Spelled .own := .basic .int
  have hstring : (GoType.basic .string).Spelled .own := .basic .string
  have hobject : hostObject.Spelled .own := by
    refine .pointer (.intro ⟨by decide, fun h => by cases h⟩ fun p hp => ?_)
    obtain rfl := List.mem_singleton.mp hp
    exact .intro ⟨by decide, fun h f hf => by cases h; cases hf⟩ fun p hp => by cases hp
  have hget : (GoType.func { params := [.basic .string], results := [hostObject] }).Spelled .own :=
    .func (List.forall_mem_singleton.mpr hstring) hobject
  have hchan : (GoType.chan (.basic .int)).Spelled .own :=
    .intro ⟨by decide, fun h => by cases h⟩ (List.forall_mem_singleton.mpr hint)
  have hvoid : GoType.void.Spelled .own := .tuple fun _ h => (nomatch h)
  have hf : (GoType.func { params := [hostObject, .basic .int], results := [] }).Spelled .own := by
    refine .intro ⟨by decide, fun h => by cases h⟩ ?_
    change ∀ p ∈ [hostObject, .basic .int], _
    simp only [List.forall_mem_cons]
    exact ⟨hobject, hint, fun _ h => (nomatch h)⟩
  refine ⟨Facts.plain_of_forall ?_ (fun _ h => (nomatch h)) ?_ ?_, fun _ h => (nomatch h)⟩
  · change ∀ t ∈ [hostObject, .func { params := [.basic .string], results := [hostObject] },
      .func { params := [.basic .string], results := [hostObject] }, hostObject, .basic .string,
      .chan (.basic .int), .basic .int, .func { params := [hostObject, .basic .int], results := [] },
      .void], _
    simp only [List.forall_mem_cons]
    exact ⟨hobject, hget, hget, hobject, hstring, hchan, hint, hf, hvoid, fun _ h => (nomatch h)⟩
  · change ∀ obj ∈ [Object.var "o" hostObject, .var "ch" (.chan (.basic .int)),
      .func "f" (.func { params := [hostObject, .basic .int], results := [] })], _
    simp only [List.forall_mem_cons]
    exact ⟨hown "o" (by decide) rfl _ _, hown "ch" (by decide) rfl _ _, hown "f" (by decide) rfl _ _,
      fun _ h => (nomatch h)⟩
  · change ∀ selection ∈ [Selection.mk _ _ _ _ _], _
    refine List.forall_mem_singleton.mpr ⟨hobject, .of_isNameChar (by decide) rfl, by decide⟩

/-- **A key may be called like a value.** In `f(o.Get("_r0"), <-ch)` all names are names of their own,
but the key of the property is not: `o._r0` is assigned to a temporary before there is a value `_r0`,
which is then that of the receive. -/
theorem Request.propertyAndReceived_not_inOrder :
    let env : Env := { facts := (propertyAndReceived.run {}).2.facts, config := { host := some {} } }
    let request := Request.expression (propertyAndReceived.run {}).1 none
    env.Plain .own ∧ ∃ f s, request.run.runIn env {} = (.ok f, s) ∧ "_r0" ∈ s.temporaries ∧
      (∃ rest, s.pending = .assign "_arg1" "o._r0" :: rest) ∧ ReadsName "o._r0" "_r0" ∧
        ¬ InOrder s.temporaries [] s.pending := by
  intro env request
  have hok : (request.run.runIn env {}).1.isOk = true := by decide +kernel
  have hfirst : (request.run.runIn env {}).2.pending.head?.map
      (fun stmt => (stmt.texts, stmt.steps)) = some (["_arg1", "o._r0"], []) := by decide +kernel
  have hmem : "_r0" ∈ (request.run.runIn env {}).2.temporaries := by decide +kernel
  have hreads : ReadsName "o._r0" "_r0" :=
    ⟨_, rfl, ['o', '.'], [], by decide, by decide, by decide⟩
  obtain ⟨f, s, hrun⟩ := LowerM.exists_runIn_eq_ok hok
  rw [hrun] at hfirst hmem
  obtain ⟨rest, hpending⟩ : ∃ rest, s.pending = .assign "_arg1" "o._r0" :: rest := by
    cases hs : s.pending with
    | nil => rw [hs] at hfirst; cases hfirst
    | cons stmt rest =>
      rw [hs] at hfirst
      obtain ⟨htexts, hsteps⟩ := Prod.mk.inj (Option.some.inj hfirst)
      cases stmt with
      | assign target value =>
        cases htexts
        exact ⟨rest, rfl⟩
      | callAssign target call step => cases hsteps
      | guard result condition isAnd body value => simp [Statement.texts] at htexts
  refine ⟨plain_propertyAndReceived, f, s, hrun, hmem, ⟨rest, hpending⟩, hreads, fun horder => ?_⟩
  -- Nothing has been assigned when the first statement runs.
  rw [hpending] at horder
  exact List.not_mem_nil (horder.1.2.reads "_r0" hmem rfl hreads)

end GoLua
