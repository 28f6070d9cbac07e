import GoLua.Proofs.ShortCircuit
import GoLua.Proofs.Written.Session

/-!
# Emitted text is balanced

A text may be put where an operand is expected if it does not fall apart there: its literals are closed,
its brackets belong together, and no operator of it stands outside of brackets, where it would compete
with the operators around. All operators that are words, and all that stand between operands, have
blanks around them; so the last amounts to a text that exposes no blank. Nobody checks this when a text
is put together; a fragment only says of itself whether it needs brackets.

The grammar of emitted text has it (`Emitted.reads`): brackets come in pairs, all else that may be in a
text has no brackets or is balanced by itself, and a blank is flat only inside of brackets. What the
program brings in must not break this: its names have to look like names, and the code of its bodies has
to be balanced (`Vocabulary.tidy`).

`Session.texts_balanced` says it of all texts there are, those of statements included.
-/

namespace GoLua

open Lua

/-! ### Brackets -/

/-- The brackets that are open behind a character, the innermost first; none if it closes a bracket
that is not the innermost one. -/
def bracketStep (opened : List Char) (c : Char) : Option (List Char) :=
  if isOpening c then some (c :: opened)
  else if isClosing c then
    match opened with
    | [] => none
    | o :: opened => if isPair o c then some opened else none
  else some opened

/-- The brackets that are open behind some characters. -/
def openAfter (opened cs : List Char) : Option (List Char) :=
  cs.foldlM bracketStep opened

/-- A text whose literals are closed, and whose brackets outside of them belong together. -/
def IsBalanced (text : List Char) : Prop :=
  (outside text).bind (openAfter []) = some []

/-- A text with a blank outside of literals and of brackets. -/
def ExposesBlank (text : List Char) : Prop :=
  ∃ before after, outside text = some (before ++ ' ' :: after) ∧ openAfter [] before = some []

instance (text : List Char) : Decidable (IsBalanced text) :=
  inferInstanceAs (Decidable ((outside text).bind (openAfter []) = some []))

/-- Brackets are read one by one. -/
theorem openAfter_cons (opened : List Char) (c : Char) (cs : List Char) :
    openAfter opened (c :: cs) = (bracketStep opened c).bind fun opened => openAfter opened cs :=
  List.foldlM_cons

/-- A text behind another is read with what that one left open. -/
theorem openAfter_append (opened t u : List Char) :
    openAfter opened (t ++ u) = (openAfter opened t).bind fun opened => openAfter opened u :=
  List.foldlM_append

/-- An opening bracket is put on top. -/
theorem bracketStep_opening {c : Char} (h : isOpening c) (opened : List Char) :
    bracketStep opened c = some (c :: opened) :=
  if_pos h

/-- A closing one takes off the one it belongs to. -/
theorem bracketStep_pair {o c : Char} (h : isPair o c) (opened : List Char) :
    bracketStep (o :: opened) c = some opened := by
  have hopen : isOpening c = false := by
    unfold isPair at h
    split at h <;> first | rfl | cases h
  rw [bracketStep, if_neg (by simp [hopen]), if_pos (isOpening_of_isPair h).2]
  exact if_pos h

/-- What is open around a character stays open. -/
theorem bracketStep_append {opened left : List Char} {c : Char} (h : bracketStep opened c = some left)
    (around : List Char) : bracketStep (opened ++ around) c = some (left ++ around) := by
  -- A bracket is looked up on top of the stack, which stays on top of anything below it.
  unfold bracketStep at h ⊢
  split at h
  · next hopen =>
    obtain rfl := Option.some.inj h
    rw [if_pos hopen, List.cons_append]
  next hopen =>
  rw [if_neg hopen]
  split at h
  · next hclose =>
    rw [if_pos hclose]
    split at h
    · cases h
    · split at h
      · next hpair =>
        obtain rfl := Option.some.inj h
        exact if_pos hpair
      · cases h
  · next hclose =>
    obtain rfl := Option.some.inj h
    rw [if_neg hclose]

/-- What is open around a text is open behind it. -/
theorem openAfter_append_opened {opened t left : List Char} (h : openAfter opened t = some left)
    (around : List Char) : openAfter (opened ++ around) t = some (left ++ around) := by
  induction t generalizing opened with
  | nil =>
    obtain rfl := Option.some.inj h
    rfl
  | cons c t ih =>
    rw [openAfter_cons] at h ⊢
    obtain ⟨next, hnext, hrest⟩ := Option.bind_eq_some_iff.mp h
    rw [bracketStep_append hnext, Option.bind_some, ih hrest]

/-- A character that is no bracket, no blank and no quote. -/
def isCalm (c : Char) : Bool :=
  !isOpening c && !isClosing c && c != ' ' && c != '"'

/-- A text without brackets leaves the stack alone. -/
theorem openAfter_calm {t : List Char} (h : t.all isCalm) (opened : List Char) :
    openAfter opened t = some opened := by
  induction t with
  | nil => rfl
  | cons c t ih =>
    simp only [List.all_cons, isCalm, Bool.and_eq_true, Bool.not_eq_true'] at h
    obtain ⟨⟨⟨⟨hopen, hclose⟩, -⟩, -⟩, hrest⟩ := h
    have hstep : bracketStep opened c = some opened := by
      unfold bracketStep
      rw [if_neg (by simp [hopen]), if_neg (by simp [hclose])]
    rw [openAfter_cons, hstep]
    exact ih hrest

/-- No character of a name is a bracket, a quote or a blank. -/
theorem isCalm_of_isNameChar {c : Char} (h : isNameChar c) : isCalm c := by
  have hopen : isOpening c = false := by
    cases hc : isOpening c with
    | false => rfl
    | true => exact absurd (not_isNameChar_of_isOpening hc) (by simp [h])
  have hclose : isClosing c = false := by
    cases hc : isClosing c with
    | false => rfl
    | true => exact absurd (not_isNameChar_of_isClosing hc) (by simp [h])
  have hne {d : Char} (hd : isNameChar d = false) : c ≠ d := fun heq => by simp [heq ▸ h] at hd
  simp [isCalm, hopen, hclose, hne (d := ' ') rfl, hne (d := '"') rfl]

/-- Nor is a sign. -/
theorem isCalm_of_isSign {c : Char} (h : isSign c) : isCalm c := by
  simp only [isSign, Bool.and_eq_true] at h
  obtain ⟨⟨⟨⟨⟨-, hopen⟩, hclose⟩, hblank⟩, hquote⟩, -⟩ := h
  simp only [isCalm, hopen, hclose, hblank, hquote, Bool.and_self]

/-- Nor is a part of a number. -/
theorem isCalm_of_isFigure {c : Char} (h : isFigure c) : isCalm c := by
  rcases Bool.or_eq_true_iff.mp h with h | h
  · exact isCalm_of_isNameChar (by simp [isNameChar, (Bool.and_eq_true_iff.mp h).1])
  · exact isCalm_of_isSign h

/-! ### Texts -/

/-- How a text reads from outside: balanced, and if it is flat without a blank that is exposed. -/
structure Reads (flat : Bool) (text : List Char) : Prop where
  balanced : IsBalanced text
  flat : flat = true → ¬ ExposesBlank text

namespace Reads

variable {flat : Bool} {t u : List Char}

/-- By what is outside of literals. -/
theorem of_outside {out : List Char} (hout : outside t = some out)
    (hopen : openAfter [] out = some [])
    (hflat : flat = true → ∀ before after, out = before ++ ' ' :: after →
      openAfter [] before ≠ some []) : Reads flat t := by
  refine ⟨by rw [IsBalanced, hout, Option.bind_some, hopen], fun h => ?_⟩
  rintro ⟨before, after, hsome, hnone⟩
  exact hflat h before after (Option.some.inj (hout.symm.trans hsome)) hnone

/-- What is outside of literals. -/
theorem exists_outside (h : Reads flat t) : ∃ out, outside t = some out ∧
    openAfter [] out = some [] ∧
    (flat = true → ∀ before after, out = before ++ ' ' :: after →
      openAfter [] before ≠ some []) := by
  obtain ⟨out, hout, hopen⟩ := Option.bind_eq_some_iff.mp h.balanced
  exact ⟨out, hout, hopen, fun hflat before after heq hnone =>
    h.flat hflat ⟨before, after, heq ▸ hout, hnone⟩⟩

/-- A calm text is balanced, and shows no blank. -/
theorem calm (h : t.all isCalm) : Reads flat t := by
  have hcalm := List.all_eq_true.mp h
  have hplain : ∀ c ∈ t, c ≠ ' ' ∧ c ≠ '"' := by
    intro c hc
    have hone := hcalm c hc
    simp only [isCalm, Bool.and_eq_true, bne_iff_ne] at hone
    exact ⟨hone.1.2, hone.2⟩
  refine of_outside (outsideOf_of_forall fun c hc => by simpa using (hplain c hc).2)
    (openAfter_calm h [])
    fun _ before after heq _ => ?_
  exact (hplain ' ' (heq ▸ List.mem_append_right _ List.mem_cons_self)).1 rfl

theorem loose (h : Reads flat t) : Reads false t :=
  ⟨h.balanced, fun h => (nomatch h)⟩

/-- Fixed text. -/
theorem fixed (h : IsBalanced t) : Reads false t :=
  ⟨h, fun h => (nomatch h)⟩

/-- What is behind a balanced text reads as if it stood alone. -/
theorem append {flat' : Bool} (ht : Reads flat t) (hu : Reads flat' u) :
    Reads (flat && flat') (t ++ u) := by
  obtain ⟨out, hout, hopen, hflat⟩ := ht.exists_outside
  obtain ⟨out', hout', hopen', hflat'⟩ := hu.exists_outside
  refine of_outside (outsideOf_append hout hout') ?_ fun hboth before after heq => ?_
  -- A blank outside of all brackets would be one of either text.
  · rw [openAfter_append, hopen, Option.bind_some, hopen']
  obtain ⟨hone, htwo⟩ := Bool.and_eq_true_iff.mp hboth
  rcases List.append_eq_append_iff.mp heq with ⟨more, rfl, hmore⟩ | ⟨more, hmore, hrest⟩
  · -- The blank is in the text behind.
    rw [openAfter_append, hopen, Option.bind_some]
    exact hflat' htwo more after hmore
  · cases more with
    | nil =>
      rw [List.append_nil] at hmore
      subst hmore
      rw [← List.append_nil out, openAfter_append, hopen, Option.bind_some]
      exact hflat' htwo [] after hrest.symm
    | cons c more =>
      obtain ⟨rfl, -⟩ := List.cons.inj hrest
      exact hflat hone before more hmore

/-- Between brackets no blank is exposed. -/
theorem bracket {o c : Char} (hpair : isPair o c) (h : Reads false t) :
    Reads true (o :: t ++ [c]) := by
  obtain ⟨out, hout, hopen, -⟩ := h.exists_outside
  obtain ⟨hopening, hclosing⟩ := isOpening_of_isPair hpair
  have hne {d e : Char} (hd : isOpening d ∨ isClosing d) (he : isOpening e = false)
      (he' : isClosing e = false) : d ≠ e := by
    rintro rfl
    simp [he, he'] at hd
  have hquoted : outside (o :: t ++ [c]) = some (o :: out ++ [c]) :=
    outsideOf_append (outsideOf_cons (beq_eq_false_iff_ne.mpr (hne (.inl hopening) rfl rfl)) hout)
      (outsideOf_of_forall (List.forall_mem_singleton.mpr
        (beq_eq_false_iff_ne.mpr (hne (.inr hclosing) rfl rfl))))
  have hinside : openAfter [] (o :: out) = some [o] := by
    rw [openAfter_cons, bracketStep_opening hopening]
    exact openAfter_append_opened hopen [o]
  refine of_outside hquoted ?_ fun _ before after heq => ?_
  · rw [openAfter_append, hinside, Option.bind_some, openAfter_cons, bracketStep_pair hpair]
    rfl
  · cases before with
    | nil =>
      obtain ⟨heq, -⟩ := List.cons.inj heq
      exact absurd heq (hne (.inl hopening) rfl rfl)
    | cons b before =>
      obtain ⟨rfl, hinner⟩ : o = b ∧ out ++ [c] = before ++ ' ' :: after := by simpa using heq
      -- The blank stands in the text between, so the bracket is open before it.
      have hprefix : before <+: out := by
        rcases List.append_eq_append_iff.mp hinner with ⟨more, hmore, hrest⟩ | ⟨more, rfl, -⟩
        · cases more with
          | nil => exact ⟨[], by simpa using hmore⟩
          | cons d more =>
            have hlength := congrArg List.length hrest
            simp at hlength
        · exact List.prefix_append _ _
      obtain ⟨rest, rfl⟩ := hprefix
      rw [openAfter_append] at hopen
      obtain ⟨opened, hopened, -⟩ := Option.bind_eq_some_iff.mp hopen
      rw [openAfter_cons, bracketStep_opening hopening, Option.bind_some]
      intro hnone
      have hleft := openAfter_append_opened hopened [o]
      rw [List.nil_append, hnone] at hleft
      simp at hleft

/-- A list of texts is balanced. -/
theorem commaSeparated {texts : List String} (h : ∀ text ∈ texts, Reads false text.toList) :
    Reads false (Text.commaSeparated texts).toList := by
  refine Text.intercalate_induction (P := fun t => Reads false t.toList) (.fixed rfl)
    (fun s t hs ht => ?_) h
  rw [String.toList_append, String.toList_append]
  exact (hs.append (.fixed (t := ", ".toList) rfl)).append ht

end Reads

/-! ### Emitted text -/

/-- Names that look like names: without brackets, blanks and quotes. -/
def IsTidyName (name : String) : Prop :=
  name.toList.all isCalm

/-- Making a name safe keeps it tidy. -/
theorem isTidyName_safeName {name : String} (h : IsTidyName name) : IsTidyName (safeName name) := by
  unfold safeName
  split
  · rw [IsTidyName, String.toList_append, List.all_append, h]
    rfl
  · exact h

/-- So does the name of a box without its index. -/
theorem isTidyName_dropBoxIndex {name : String} (h : IsTidyName name) :
    IsTidyName (dropBoxIndex name) := by
  unfold dropBoxIndex
  split
  · next r hr =>
    -- There is no index to be taken off, since it would have brackets.
    have hmem : ']' ∈ name.toList := List.mem_reverse.mp (hr ▸ List.mem_cons_self)
    exact absurd (List.all_eq_true.mp h _ hmem) (by decide)
  · exact h

/-- What Go takes for a name is tidy. -/
theorem isTidyName_of_isName {name : String} (h : isName name) : IsTidyName name := by
  obtain ⟨c, cs, hname, -, hall, -⟩ := toList_of_isName h
  exact List.all_eq_true.mpr fun _ hc =>
    isCalm_of_isNameChar (List.all_eq_true.mp hall _ (hname ▸ hc))

/-- **A tidy program.** Its names look like names, and the code of its bodies is balanced. -/
def Vocabulary.tidy : Vocabulary where
  name := IsTidyName
  code c := IsBalanced c.toList
  strict := False
  failure _ := True
  safe := isTidyName_safeName
  unboxed := isTidyName_dropBoxIndex
  spelled _ _ := isTidyName_of_isName
  quiet h := h.elim
  failing _ := trivial

/-- **Text that is emitted for a tidy program is balanced**, and exposes no blank if it is flat. -/
theorem Emitted.reads {known : String → Prop} {flat : Bool} {t : List Char}
    (h : Emitted .tidy known flat t) : Reads flat t := by
  have function : Reads true "function".toList := .calm rfl
  -- By induction on how the text is emitted: words and numbers have no brackets, and each rule that
  -- opens one closes it again.
  induction h with
  | blank => exact .of_outside rfl rfl fun h => (nomatch h)
  | sign h => exact .calm (by simp [isCalm_of_isSign h])
  | word h _ => exact .calm (List.all_eq_true.mpr fun c hc =>
      isCalm_of_isNameChar (List.all_eq_true.mp h c hc))
  | number h => exact .calm (List.all_eq_true.mpr fun c hc =>
      isCalm_of_isFigure (List.all_eq_true.mp h c hc))
  | known _ hw _ => exact .calm (List.all_eq_true.mpr fun c hc => isCalm_of_isNameChar (hw c hc))
  | name h _ => exact .calm h
  | package h => exact .calm (by rw [List.all_append, h]; rfl)
  | box h => exact .calm (isTidyName_dropBoxIndex (isTidyName_safeName h))
  | code h => exact .fixed h
  | literal h =>
    refine .of_outside (h _ rfl) rfl fun _ before after heq => ?_
    have hmem : ' ' ∈ ['"', '"'] := heq ▸ List.mem_append_right _ List.mem_cons_self
    simp at hmem
  | quoted h _ =>
    refine .calm (List.all_eq_true.mpr fun c hc => ?_)
    simp only [List.mem_append, List.mem_cons, List.not_mem_nil, or_false] at hc
    rcases hc with (rfl | hc) | rfl
    · rfl
    · exact isCalm_of_isNameChar (List.all_eq_true.mp h c hc)
    · rfl
  | declaration _ _ ih => exact Reads.append (.fixed (t := "local ".toList) rfl) ih
  | thunk => exact Reads.append function (.bracket (o := '(') (c := ')') rfl (.fixed (t := []) rfl))
  | parameter _ _ ih => exact Reads.append function (.bracket (o := '(') (c := ')') rfl ih.loose)
  | closure hcode hnames =>
    have hlist := Reads.commaSeparated fun name hname => .calm (hnames name hname)
    have hcall := Reads.bracket (o := '(') (c := ')') rfl hlist
    have hhead := function.append hcall
    have hbody := ((hhead.append (.fixed (t := " return ".toList) rfl)).append
      (.fixed hcode)).append (.fixed (t := " end".toList) rfl)
    have hall := (Reads.bracket (o := '(') (c := ')') rfl hbody.loose).append hcall
    simpa [String.toList_append] using hall
  | bracket h _ ih => exact .bracket h ih
  | append _ _ _ ih ih' => exact ih.append ih'
  | exposed _ ih => exact ih.loose

/-! ### Statements -/

mutual

/-- All texts of a statement, its branch included. -/
def Statement.texts : Statement → List String
  | .assign target value => [target, value]
  | .callAssign target call _ => target.toList ++ [call]
  | .guard result condition _ body value => result :: condition :: (textsOf body ++ [value])
termination_by structural s => s

/-- All texts of several statements. -/
def textsOf : List Statement → List String
  | [] => []
  | s :: ss => s.texts ++ textsOf ss
termination_by structural ss => ss

end

theorem IsNamed.reads {text : String} (h : IsNamed text) : Reads true text.toList :=
  .calm (List.all_eq_true.mpr fun c hc => isCalm_of_isNameChar (h c hc))

section

variable {V : Vocabulary} {text : String}

mutual

/-- Each text of a statement is a name it binds, or emitted. -/
theorem Statement.Scoped.of_mem_texts {known : String → Prop} (s : Statement) (h : s.Scoped V known)
    (ht : text ∈ s.texts) :
    (IsNamed text ∧ text ∈ s.targets) ∨ ∃ known', Emits V known' false text := by
  -- Of a guard, the texts of its body are looked up in the body.
  cases s with
  | assign target value =>
    rcases List.mem_cons.mp ht with rfl | ht
    · exact h.1.imp (fun hnamed => ⟨hnamed, List.mem_cons_self⟩) fun htext => ⟨_, htext⟩
    · obtain rfl := List.mem_singleton.mp ht
      exact .inr ⟨_, h.2⟩
  | callAssign target call step =>
    rcases List.mem_append.mp ht with ht | ht
    · exact .inl ⟨h.1 text (Option.mem_toList.mp ht), ht⟩
    · obtain rfl := List.mem_singleton.mp ht
      exact .inr ⟨_, h.2⟩
  | guard result condition isAnd body value =>
    obtain ⟨hresult, hcondition, hbody, hvalue⟩ := h
    simp only [Statement.texts, List.mem_cons, List.mem_append, List.not_mem_nil, or_false] at ht
    rcases ht with rfl | rfl | ht | rfl
    · exact .inl ⟨hresult, List.mem_cons_self⟩
    · exact .inr ⟨_, hcondition⟩
    · exact (Scoped.of_mem_texts body hbody ht).imp_left fun h => ⟨h.1, List.mem_cons_of_mem _ h.2⟩
    · exact .inr ⟨_, hvalue⟩
termination_by structural s

/-- A text of statements in scope is in the grammar, or it is a name that is assigned. -/
theorem Scoped.of_mem_texts {known : String → Prop} (ss : List Statement) (h : Scoped V known ss)
    (ht : text ∈ textsOf ss) :
    (IsNamed text ∧ text ∈ targetsOf ss) ∨ ∃ known', Emits V known' false text := by
  cases ss with
  | nil => cases ht
  | cons s ss =>
    rcases List.mem_append.mp ht with ht | ht
    · exact (Statement.Scoped.of_mem_texts s h.1 ht).imp_left fun h => ⟨h.1, List.mem_append_left _ h.2⟩
    · exact (Scoped.of_mem_texts ss h.2 ht).imp_left fun h => ⟨h.1, List.mem_append_right _ h.2⟩
termination_by structural ss

end

end

/-- The texts of statements are balanced. -/
theorem Scoped.balanced {known : String → Prop} (ss : List Statement) (h : Scoped .tidy known ss) :
    ∀ text ∈ textsOf ss, IsBalanced text.toList := by
  intro text ht
  rcases of_mem_texts ss h ht with ⟨hnamed, -⟩ | ⟨known', htext⟩
  · exact hnamed.reads.balanced
  · exact htext.reads.balanced

/-! ### Sessions -/

/-- **Emitted text is balanced.** Whatever requests there have been for tidy programs, with whatever
outcomes and with the pending statements drained at any time: what a further request succeeds with is
balanced and, unless it asks for brackets, exposes no blank; and the texts of all statements there have
been are balanced. -/
theorem Session.texts_balanced {actions : List Action} {env : Env} {request : Request} {f : Fragment}
    (hactions : ∀ action ∈ actions, action.Plain .tidy) (henv : env.Plain .tidy)
    (hrequest : request.Plain .tidy)
    (hrun : (request.run.runIn env (actions.foldl act {}).state).1 = .ok f) :
    IsBalanced f.text.toList ∧ (f.parens = false → ¬ ExposesBlank f.text.toList) ∧
      ∀ text ∈ textsOf (act (actions.foldl act {}) (.run env request)).statements,
        IsBalanced text.toList := by
  have hloose : ¬ Vocabulary.strict .tidy := id
  have hsession := sound_new.foldl hloose hactions
  have hfragment := (hsession.answer hloose henv hrequest).result f hrun
  have hnext : (act (actions.foldl act {}) (.run env request)).Sound .tidy :=
    hsession.act hloose ⟨henv, hrequest⟩
  exact ⟨hfragment.text.reads.balanced, fun hparens => (hfragment.flat hparens).reads.flat rfl,
    Scoped.balanced _ hnext.statements⟩

/-- All that `ready && <-events` brings in are its two names. -/
theorem plain_readyAndReceived {V : Vocabulary} (hready : V.name "ready") (hevents : V.name "events") :
    Env.Plain V { facts := (readyAndReceived.run {}).2.facts } := by
  have hbool : (GoType.basic .bool).Spelled V := .basic .bool
  have hchan : (GoType.chan (.basic .bool)).Spelled V :=
    .intro ⟨by decide, fun h => by cases h⟩ fun p hp => by
      obtain rfl := List.mem_singleton.mp hp
      exact hbool
  refine ⟨Facts.plain_of_forall ?_ (fun _ h => (nomatch h)) ?_ (fun _ h => (nomatch h)),
    fun _ h => (nomatch h)⟩
  · change ∀ t ∈ [GoType.basic .bool, .chan (.basic .bool), .basic .bool, .basic .bool], _
    simp only [List.forall_mem_cons]
    exact ⟨hbool, hchan, hbool, hbool, fun _ h => (nomatch h)⟩
  · change ∀ obj ∈ [Object.var "ready" (.basic .bool), .var "events" (.chan (.basic .bool))], _
    simp only [List.forall_mem_cons]
    exact ⟨⟨hready, fun _ h => (nomatch h)⟩, ⟨hevents, fun _ h => (nomatch h)⟩,
      fun _ h => (nomatch h)⟩

/-- `ready && <-events` once more, after it has been lowered and its statements have been drained. -/
theorem Session.texts_balanced_readyAndReceived :
    let env : Env := { facts := (readyAndReceived.run {}).2.facts }
    let request := Request.expression (readyAndReceived.run {}).1 none
    ∃ f, (request.run.runIn env ([.run env request, .drain].foldl act {}).state).1 = .ok f ∧
      IsBalanced f.text.toList ∧ (f.parens = false → ¬ ExposesBlank f.text.toList) ∧
        ∀ text ∈ textsOf (act ([.run env request, .drain].foldl act {}) (.run env request)).statements,
          IsBalanced text.toList := by
  intro env request
  have henv : env.Plain .tidy := plain_readyAndReceived rfl rfl
  have hok : (request.run.runIn env ([.run env request, .drain].foldl act {}).state).1.isOk = true := by
    decide +kernel
  obtain ⟨f, s', hrun⟩ := LowerM.exists_runIn_eq_ok hok
  have hresult := congrArg Prod.fst hrun
  refine ⟨f, hresult, texts_balanced (fun action haction => ?_) henv trivial hresult⟩
  simp only [List.mem_cons, List.not_mem_nil, or_false] at haction
  rcases haction with rfl | rfl
  · exact ⟨henv, trivial⟩
  · trivial

end GoLua
