import GoLua.Proofs.Written.Run

/-!
# Steps that keep to the vocabulary

What lowering does to a state, one operation at a time: it mints names, leaves statements and makes
nodes. Two operations rearrange statements. A connective puts what its right operand left into the
branch of a guard, where as much may be read as before; a sequence puts moves before what a part left,
and these only assign more.
-/

namespace GoLua

open Lua

section

variable {V : Vocabulary} {env : Env} {s s₁ s₂ s' : FunctionState}

/-! ### Names -/

/-- Whether a character is in no reserved word. -/
def isForeign (c : Char) : Bool :=
  c.isDigit || c == '_' || c == '['

/-- A name with a character that is in no reserved word is written as it is. -/
theorem safeName_of_mem {name : String} {c : Char} (hc : c ∈ name.toList) (h : isForeign c) :
    safeName name = name := by
  have hall : ∀ word ∈ keywords, word.toList.all (!isForeign ·) := by decide
  refine if_neg fun hkeyword => ?_
  have hletter := List.all_eq_true.mp (hall name (List.contains_iff_mem.mp hkeyword)) c hc
  exact absurd hletter (by simp [h])

/-- A minted name ends in a digit, so it is no reserved word. -/
theorem safeName_minted (hint : String) (n : Nat) :
    safeName (hint ++ toString n) = hint ++ toString n := by
  obtain ⟨c, hc⟩ : ∃ c, c ∈ (toString n).toList := by
    refine List.exists_mem_of_ne_nil _ fun hnil => ?_
    have hpos := Nat.length_toDigits_pos (b := 10) (n := n)
    rw [Nat.toString_eq_repr, Nat.toList_repr] at hnil
    simp [hnil] at hpos
  have hdigit := isDigit_of_mem_toString hc
  refine safeName_of_mem (c := c) ?_ ?_
  · rw [String.toList_append]
    exact List.mem_append_right _ hc
  · simp [isForeign, hdigit]

/-- A name that may be read in a state, and is written as it is. -/
structure IsReadableName (V : Vocabulary) (s : FunctionState) (name : String) : Prop where
  quiet : IsQuiet name.toList
  safe : safeName name = name
  text : IsText V true s name

/-- A name that can be read still can later on. -/
theorem IsReadableName.mono {name : String} (h : IsReadableName V s name) (hgrows : Grows s s') :
    IsReadableName V s' name :=
  ⟨h.quiet, h.safe, h.text.mono hgrows⟩

/-- It is a text, in the spelling the output has for it. -/
theorem IsReadableName.safeText {name : String} (h : IsReadableName V s name) :
    IsText V true s (safeName name) :=
  h.safe.symm ▸ h.text

/-- A generated name that may be read is readable by what it stands for. -/
theorem IsReadableName.of_minted {hint : String} (h : isHint hint) {n : Nat}
    (hread : Readable V s (hint ++ toString n)) : IsReadableName V s (hint ++ toString n) :=
  ⟨isQuiet_of_isNameChar (minted_named h n), safeName_minted hint n,
    .known hread (minted_named h n) (isBinder_minted hint n)⟩

/-- The result of a statement that has been left. -/
theorem IsReadableName.of_left {hint : String} (h : isHint hint) {n : Nat} {m : Made}
    (hm : hint ++ toString n ∈ m.statement.results) :
    IsReadableName V (s.leave m) (hint ++ toString n) := by
  refine .of_minted h (readable_of_mem ?_)
  rw [FunctionState.leave, FunctionState.pending_push, resultsOf_append, resultsOf_singleton]
  exact List.mem_append_right _ hm

/-- A generated name that may be bound and then be read. -/
structure IsBindableName (V : Vocabulary) (s : FunctionState) (name : String) : Prop
    extends IsReadableName V s name where
  generated : isGenerated name.toList

/-- A name that can be bound still can later on. -/
theorem IsBindableName.mono {name : String} (h : IsBindableName V s name) (hgrows : Grows s s') :
    IsBindableName V s' name :=
  ⟨h.toIsReadableName.mono hgrows, h.generated⟩

namespace Delivers

open Lower

/-- A local that holds no value of the program. -/
theorem newLocal {hint : String} (h : isGeneratedHint hint) (hvalue : hint ∉ valueHints) :
    Delivers V env s (Lower.newLocal hint) (IsBindableName V) :=
  have hhint := isHint_of_isGeneratedHint h
  of_step (runIn_newLocal env s hint) fun hs =>
    ⟨hs.of_eq (.newLocal s hint) rfl rfl rfl rfl rfl, .newLocal s hint,
      ⟨isQuiet_of_isNameChar (minted_named hhint _), safeName_minted _ _, emits_minted hhint hvalue _⟩,
      isGenerated_minted h _⟩

/-- The parameter of an accessor, which is hidden from all others. -/
theorem newParameter : Delivers V env s (Lower.newLocal "_v") (IsBindableName V) := by
  refine of_step (runIn_newLocal env s "_v") fun hs =>
    ⟨hs.of_eq (.newLocal s "_v") rfl rfl rfl rfl rfl, .newLocal s "_v", ?_,
      isGenerated_minted (by decide) _⟩
  refine .of_minted (by decide) fun _ => .inl ⟨s.nextName, ?_, rfl, fun hmem => ?_⟩
  · exact Nat.lt_succ_self _
  · -- All temporaries have smaller numbers.
    obtain ⟨⟨hint, n, hhint, -, hn, heq⟩, -⟩ := hs.minted _ hmem
    obtain ⟨-, rfl⟩ := minted_injective (by decide) hhint heq
    exact Nat.lt_irrefl _ hn

/-- A box has a name, the one it was minted with. -/
theorem accessorBox (key : String) (h : isGeneratedHint (key ++ "_ptr")) :
    Delivers V env s (Lower.accessorBox key) (IsText V true) := by
  have hhint := isHint_of_isGeneratedHint h
  refine of_step (runIn_accessorBox env s key) fun hs => ?_
  -- Either the key has its box already, or one is minted and joins the list.
  unfold FunctionState.accessorBox
  split
  · next name hname =>
    obtain ⟨before, after, hboxes, -⟩ := List.lookup_eq_some_iff.mp hname
    have hbox := hs.boxes (key, name) (by simp [hboxes])
    exact ⟨hs, .refl s, .word (List.all_eq_true.mpr hbox.named) hbox.plain⟩
  · -- The hint of a box ends with that of a pointer, and no hint of a value does.
    have hvalue : key ++ "_ptr" ∉ valueHints := by
      intro hmem
      have hall : ∀ hint ∈ valueHints, ¬ ['_', 'p', 't', 'r'] <:+ hint.toList := by decide
      refine hall _ hmem ?_
      rw [String.toList_append]
      exact List.suffix_append _ _
    have hname : IsNamed (key ++ "_ptr" ++ toString s.nextName) := minted_named hhint _
    have hplain : isTelling (key ++ "_ptr" ++ toString s.nextName).toList = false :=
      isTelling_minted hhint hvalue _
    have hgrows := Grows.newTemporary s h
    refine ⟨?_, ⟨hgrows.pending, hgrows.names, hgrows.temporaries, hgrows.nodes, hgrows.uses,
      hgrows.constants⟩, .word (List.all_eq_true.mpr hname) hplain⟩
    have hnew := hs.of_eq hgrows rfl rfl rfl rfl rfl
    refine ⟨hnew.pending, hnew.minted, fun box hbox => ?_, hnew.type, hnew.selection, hnew.loose,
      fun hstrict => (hnew.closed hstrict).of_eq (Nat.le_refl _) rfl rfl rfl⟩
    rcases List.mem_append.mp hbox with hbox | hbox
    · exact hs.boxes box hbox
    · obtain rfl := List.mem_singleton.mp hbox
      exact ⟨hname, hplain, isGenerated_minted h _⟩

/-- A message is added to the diagnostics alone. -/
theorem reportError (message : String) (span : Span) :
    Delivers V env s (Lower.reportError message span) fun _ _ => True :=
  of_step (runIn_reportError env s message span) fun hs =>
    have hgrows : Grows s (s.reportError message span) := .of_still rfl rfl rfl rfl rfl rfl
    ⟨hs.of_eq hgrows rfl rfl rfl rfl rfl, hgrows, trivial⟩

/-- A record of what was lowered is in no text. -/
theorem recordLowered (e : Expr) :
    Delivers V env s (Lower.recordLowered e) fun s' _ => s'.overlay = s.overlay := by
  refine of_step (runIn_recordLowered env s e) fun hs => ?_
  split
  · exact ⟨hs, .refl s, rfl⟩
  · have hgrows : Grows s { s with lowered := e.id :: s.lowered } :=
      .of_still rfl rfl rfl rfl rfl rfl
    exact ⟨hs.of_eq hgrows rfl rfl rfl rfl rfl, hgrows, rfl⟩

/-- The code of a body comes from outside. -/
theorem requestBody {source : BodySource} (hsource : source.Plain V) (body : Nat)
    (sig : Signature) :
    Delivers V env s (Lower.requestBody source body sig) fun _ function =>
      V.code function.code ∧ ∀ name ∈ function.captured, V.name name := by
  intro hs r s' hrun
  rw [runIn_requestBody] at hrun
  obtain ⟨rfl, rfl⟩ := Prod.mk.inj hrun
  have hgrows : Grows s { s with bodyRequests := (body, sig) :: s.bodyRequests } :=
    .of_still rfl rfl rfl rfl rfl rfl
  exact ⟨hs.of_eq hgrows rfl rfl rfl rfl rfl, hgrows,
    fun function h => ⟨hsource.code h, hsource.captured h⟩, fun failure h => hsource.failure h⟩

/-! ### Statements -/

/-- A text is kept in a temporary, which may be read from then on. -/
theorem keepInTemporary {hint value : String} (h : isGeneratedHint hint) (hvalue : IsText V false s value) :
    Delivers V env s (Lower.keepInTemporary hint value) (IsReadableName V) := by
  refine of_step (runIn_keepInTemporary env s hint value) fun hs => ?_
  have hgrows := Grows.newTemporary s h
  have hname : IsNamed (hint ++ toString s.nextName) := minted_named (isHint_of_isGeneratedHint h) _
  exact ⟨(hs.of_eq hgrows rfl rfl rfl rfl rfl).leave ⟨.inl hname, hvalue.mono hgrows⟩,
    hgrows.trans (.leave _ _), .of_left (isHint_of_isGeneratedHint h) (List.mem_singleton_self _)⟩

/-- An assignment of one text to another is a statement like any. -/
theorem assigned {write : HostWrite} {target value : String} (htarget : IsText V false s target)
    (hvalue : IsText V false s value) :
    Delivers V env s (Lower.assigned write target value) (IsSound V) :=
  of_step (RunLaw.runIn_assigned env s write target value) fun hs =>
    ⟨hs.leave ⟨.inr htarget, hvalue⟩, .leave s _, .atom (emits_text rfl)⟩

/-- A call is written where it stands, or leaves a statement and is written by its result. -/
theorem placeCall {e : Expr} {sig : Signature} {call : String} (h : IsText V true s call) :
    Delivers V env s (Lower.placeCall e sig call) fun s' f =>
      IsSound V s' f ∧ IsText V true s' f.text := by
  intro hs r s' hrun
  rw [RunLaw.runIn_placeCall] at hrun
  have hstep : Grows s s.newStep.2 := .of_still rfl rfl rfl rfl rfl rfl
  have hsound := hs.of_eq hstep rfl rfl rfl rfl rfl
  -- The three outcomes: a call that stays behind without a result, one whose result a temporary
  -- holds, and one that stays in the text.
  split at hrun
  · split at hrun <;> obtain ⟨rfl, rfl⟩ := Prod.mk.inj hrun
    · refine ⟨hsound.leave ⟨fun _ hname => (by cases hname), (h.mono hstep).loose⟩,
        hstep.trans (.leave _ _), fun f hf => ?_, fun _ hf => by cases hf⟩
      cases hf
      exact ⟨.atom (emits_text rfl), emits_text rfl⟩
    · have hhint : isGeneratedHint "_r" := by decide
      have hgrows := hstep.trans (Grows.newTemporary s.newStep.2 hhint)
      have hname : IsNamed ("_r" ++ toString s.nextName) := minted_named (by decide) _
      refine ⟨(hs.of_eq hgrows rfl rfl rfl rfl rfl).leave ⟨?_, (h.mono hgrows).loose⟩,
        hgrows.trans (.leave _ _), fun f hf => ?_, fun _ hf => by cases hf⟩
      · intro name hmem
        cases hmem
        exact hname
      · cases hf
        have hread := IsReadableName.of_left (V := V) (s := (s.newStep.2.newTemporary "_r").2)
          (isHint_of_isGeneratedHint hhint) (n := s.nextName)
          (m := ⟨env.inside, .callAssign _ call s.nextStep, none, none⟩) (Option.mem_toList.mpr rfl)
        exact ⟨.atom hread.text, hread.text⟩
  · obtain ⟨rfl, rfl⟩ := Prod.mk.inj hrun
    exact ⟨hs, .refl s, fun f hf => by cases hf; exact ⟨.atom h, h⟩, fun _ hf => by cases hf⟩

end Delivers

/-! ### Nodes -/

/-- A node that lowering has made. -/
structure IsNewNode (V : Vocabulary) (s : FunctionState) (node : Node) : Prop where
  settled : Settled V s node.id
  synthetic : V.strict → firstSyntheticId ≤ node.id

/-- A new node stays one. -/
theorem IsNewNode.mono {node : Node} (h : IsNewNode V s node) (hgrows : Grows s s') :
    IsNewNode V s' node :=
  ⟨h.settled.mono hgrows, h.synthetic⟩

/-- An expression at a new node, with settled parts. -/
theorem IsNewNode.settles {e : Expr} (h : IsNewNode V s e.node) (hregular : V.strict → e.Regular V env)
    (hparts : ∀ c ∈ e.parts, c.Settles V env s) : e.Settles V env s :=
  .intro ⟨h.settled, hregular⟩ hparts

namespace Delivers

open Lower

/-- A new node is not bound to anything. -/
theorem synthesizeNode {t : GoType} (ht : t.Spelled V) (span : Span) :
    Delivers V env s (Lower.synthesizeNode t span) (IsNewNode V) := by
  refine of_step (runIn_synthesizeNode env s t span) fun hs => ?_
  have hgrows : Grows s (s.newSyntheticId.2.modifyOverlay fun o =>
      { o with types := o.types.insert s.nextSynthetic t }) :=
    ⟨List.prefix_rfl, Nat.le_refl _, fun _ h => .inl h, Nat.le_succ _, fun _ _ => rfl, rfl⟩
  refine ⟨⟨hs.pending, hs.minted, hs.boxes, fun {id u} hu => ?_, hs.selection, hs.loose,
    fun hstrict => (hs.closed hstrict).of_eq (Nat.le_succ _) rfl rfl rfl⟩, hgrows,
    fun hstrict => ⟨Nat.lt_succ_self _, fun obj hobj => ?_⟩, fun hstrict => (hs.closed hstrict).synthetic⟩
  · change (s.overlay.types.insert s.nextSynthetic t).get? id = some u at hu
    rw [NodeTable.get?_insert] at hu
    split at hu
    · cases hu
      exact ht
    · exact hs.type hu
  · have hnone := (hs.closed hstrict).free s.nextSynthetic (Nat.le_refl _)
    cases hnone.symm.trans hobj

/-- A new node that uses an entity which may be named. -/
theorem synthesizeUse {name : String} {obj : Object} {t : GoType} (hobj : obj.Sound V (Readable V s))
    (hkind : obj.kind ≠ .nil) (ht : t.Spelled V) (span : Span) :
    Delivers V env s (Lower.synthesizeUse name obj t span) fun s' e => e.Settles V env s' ∧
      ∃ node, e = .ident node name ∧ node.id < s'.nextSynthetic ∧
        s'.overlay.uses.get? node.id = some obj := by
  intro hs r s' hrun
  -- The node is made first and the use is recorded with it, so both are seen in one state.
  unfold Lower.synthesizeUse at hrun
  rw [LowerM.runIn_bind_ok (runIn_synthesizeNode env s t span)] at hrun
  obtain ⟨rfl, rfl⟩ := Prod.mk.inj hrun
  have hnode := (synthesizeNode ht span : Delivers V env s _ _) hs _ _ (runIn_synthesizeNode env s t span)
  have hlookup (id : NodeId) := s.overlay.uses.get?_insert s.nextSynthetic id obj
  have hgrows : Grows s ((s.newSyntheticId.2.modifyOverlay fun o =>
      { o with types := o.types.insert s.nextSynthetic t }).modifyOverlay fun o =>
        { o with uses := o.uses.insert s.nextSynthetic obj }) := by
    refine ⟨List.prefix_rfl, Nat.le_refl _, fun _ h => .inl h, Nat.le_succ _, fun id hid => ?_, rfl⟩
    exact (hlookup id).trans (if_neg (Nat.ne_of_gt hid))
  refine ⟨⟨hnode.sound.pending, hnode.sound.minted, hnode.sound.boxes, hnode.sound.type,
    hnode.sound.selection, fun hloose {id o} ho => ?_, fun hstrict => ?_⟩, hgrows, fun e he => ?_,
    fun _ h => (nomatch h)⟩
  -- A lookup finds the new use at the new node and what was there before elsewhere.
  · have ho := (hlookup id).symm.trans ho
    split at ho
    · cases ho
      exact hobj.mono fun _ _ => trivial
    · exact hs.loose hloose ho
  · have hclosed := hs.closed hstrict
    refine ⟨Nat.le_succ_of_le hclosed.synthetic, fun id hid => ?_, fun {id o} ho => ?_,
      hclosed.constants, hclosed.selections⟩
    · rw [← hclosed.free id (Nat.le_trans (Nat.le_succ _) hid)]
      exact (hlookup id).trans (if_neg (Nat.ne_of_lt hid))
    · have ho := (hlookup id).symm.trans ho
      split at ho
      · cases ho
        exact hkind
      · exact hclosed.uses ho
  · cases he
    refine ⟨.intro ⟨fun _ => ⟨Nat.lt_succ_self _, fun o ho => ?_⟩, fun _ => trivial⟩
      fun _ h => (nomatch h), _, rfl, Nat.lt_succ_self _, (hlookup _).trans (if_pos rfl)⟩
    cases (s.overlay.uses.get?_insert_self s.nextSynthetic obj).symm.trans ho
    exact hobj.mono fun _ => hgrows.readable

/-- A new node that names a generated variable. -/
theorem synthesizeVar {name : String} {t : GoType} (hname : IsReadableName V s name)
    (ht : t.Spelled V) (span : Span) :
    Delivers V env s (Lower.synthesizeVar name t span) fun s' e => e.Settles V env s' := by
  have hobj : (Object.var name t).Sound V (Readable V s) :=
    .of_local hname.safeText hname.quiet rfl rfl
  exact (synthesizeUse hobj (fun h => (nomatch h)) ht span).weaken fun _ _ _ h => h.1

/-- A selection that is recorded at a new node is sound if its path can be spelled. -/
theorem recordSelection {node : Node} {selection : Selection} (hnode : IsNewNode V s node)
    (h : selection.Plain V) (hkind : selection.kind = .fieldVal) :
    Delivers V env s (Lower.recordSelection node.id selection) fun _ _ => True := by
  refine of_step (runIn_recordSelection env s node.id selection) fun hs => ?_
  have hlookup (id : NodeId) := s.overlay.selections.get?_insert node.id id selection
  refine ⟨⟨hs.pending, hs.minted, hs.boxes, hs.type, fun {id found} hfound => ?_, hs.loose,
    fun hstrict => ?_⟩, .of_still rfl rfl rfl rfl rfl rfl, trivial⟩
  -- A lookup finds it at its own node only.
  · have hfound := (hlookup id).symm.trans hfound
    split at hfound
    · cases hfound
      exact h
    · exact hs.selection hfound
  · have hclosed := hs.closed hstrict
    refine ⟨hclosed.synthetic, hclosed.free, hclosed.uses, hclosed.constants, fun {id found} hfound => ?_⟩
    have hfound := (hlookup id).symm.trans hfound
    split at hfound
    · next hid =>
      cases hfound
      exact ⟨hid ▸ hnode.synthetic hstrict, hkind⟩
    · exact hclosed.selections hfound

/-- A mark is looked up nowhere in a text. -/
theorem markSuspending (id : NodeId) :
    Delivers V env s (Lower.markSuspending id) fun s' _ => s'.overlay.uses = s.overlay.uses :=
  of_step (runIn_markSuspending env s id) fun hs =>
    have hgrows : Grows s (s.modifyOverlay fun o =>
        { o with suspending := o.suspending.mark id }) := .of_still rfl rfl rfl rfl rfl rfl
    ⟨hs.of_eq hgrows rfl rfl rfl rfl rfl, hgrows, rfl⟩

end Delivers

/-! ### Sequences -/

/-- Texts that are in the grammar where they can be read. -/
def AreTexts (V : Vocabulary) (s : FunctionState) (texts : List String) : Prop :=
  ∀ text ∈ texts, IsText V false s text

/-- Texts that can be read still can later on. -/
theorem AreTexts.mono {texts : List String} (h : AreTexts V s texts) (hgrows : Grows s s') :
    AreTexts V s' texts :=
  fun text ht => (h text ht).mono hgrows

theorem areTexts_cons {text : String} {texts : List String} (h : IsText V false s text)
    (hs : AreTexts V s texts) : AreTexts V s (text :: texts) := by
  intro t ht
  rcases List.mem_cons.mp ht with rfl | ht
  · exact h
  · exact hs t ht

theorem areTexts_append {texts texts' : List String} (h : AreTexts V s texts)
    (h' : AreTexts V s texts') : AreTexts V s (texts ++ texts') :=
  fun t ht => (List.mem_append.mp ht).elim (h t) (h' t)

/-- The statements that a part has left are put behind moves, which are in scope before them. -/
theorem FunctionState.Sound.putBack_after {added : List Statement} (h : s₁.Sound V)
    (hpending : s₁.pending = s.pending ++ added) (hs₂ : s₂.Sound V)
    (hgrows : Grows { s₁ with pending := s.pending } s₂) :
    (s₂.putBack added).Sound V ∧ ∀ w, Readable V s₁ w → Readable V (s₂.putBack added) w := by
  have hadded := (scoped_append.mp (hpending ▸ h.pending)).2
  obtain ⟨moves, hmoves⟩ := hgrows.pending
  -- What is put back was left before the moves; the names it reads are those of the state before
  -- it, or results of the moves.
  have hbefore : s₂.pending = s.pending ++ moves := hmoves.symm
  refine ⟨hs₂.putBack (hadded.mono _ fun w hw => ?_), fun w hw hstrict => ?_⟩
  · refine hw.imp (hgrows.given (V := V)) fun hw => ?_
    rw [hbefore, resultsOf_append]
    exact List.mem_append_left _ hw
  · have hw := hw hstrict
    rw [hpending, resultsOf_append] at hw
    refine hw.imp (fun hidden => hgrows.hidden hidden) fun hw => ?_
    change w ∈ resultsOf (s₂.pending ++ added)
    rw [hbefore, resultsOf_append, resultsOf_append, List.append_assoc]
    exact (List.mem_append.mp hw).elim (List.mem_append_left _)
      fun hw => List.mem_append_right _ (List.mem_append_right _ hw)

namespace Delivers

open Lower

/-- Texts that are moved become the names of temporaries. -/
theorem moveToTemporaries {hint : String} (hhint : isGeneratedHint hint) {texts : List String}
    (h : AreTexts V s texts) :
    Delivers V env s (Lower.moveToTemporaries hint texts) (AreTexts V) := by
  induction texts generalizing s with
  | nil => exact .pure fun _ ht => absurd ht List.not_mem_nil
  | cons text texts ih =>
    have htext := h text (by simp)
    have hrest : AreTexts V s texts := fun t ht => h t (by simp [ht])
    unfold Lower.moveToTemporaries
    split
    · exact (ih hrest).bind fun s₁ moved hgrows hmoved =>
        .pure (areTexts_cons (htext.mono hgrows) hmoved)
    · refine (keepInTemporary hhint htext).bind fun s₁ name hgrows hname => ?_
      exact (ih (hrest.mono hgrows)).bind fun s₂ moved hgrows' hmoved =>
        .pure (areTexts_cons (hname.mono hgrows').text.loose hmoved)

/-- So do the parts of a sequence that were not moved before. -/
theorem move {hint : String} (hhint : isGeneratedHint hint) {parts : Parts} (h : AreTexts V s parts.texts) :
    Delivers V env s (parts.move hint) fun s' parts => AreTexts V s' parts.texts := by
  have hopen : AreTexts V s parts.open := fun t ht => h t (List.mem_of_mem_drop ht)
  refine (moveToTemporaries hhint hopen).bind fun s₁ moved hgrows hmoved => .pure ?_
  exact areTexts_append (fun t ht => (h.mono hgrows) t (List.mem_of_mem_take ht)) hmoved

/-- A part may leave statements that overtake the parts before it; the texts of those are kept first,
where they can be read just as well. -/
theorem add {m : LowerM String} (h : Delivers V env s m (IsText V false)) {hint : String}
    (hhint : isGeneratedHint hint) {parts : Parts} (hparts : AreTexts V s parts.texts) :
    Delivers V env s (parts.add hint m) fun s' parts => AreTexts V s' parts.texts := by
  intro hs r s' hrun
  -- As in the function: a failure, a part that leaves nothing, and one that leaves statements,
  -- which are cut off and put back behind the moves.
  rcases hm : m.runIn env s with ⟨err | text, s₁⟩
  · rw [runIn_add_error hm] at hrun
    obtain ⟨rfl, rfl⟩ := Prod.mk.inj hrun
    have hd := h hs _ _ hm
    exact ⟨hd.sound, hd.grows, fun _ h => (nomatch h), fun e he => hd.failure e (by cases he; rfl)⟩
  have hd := h hs _ _ hm
  have htext := hd.result text rfl
  by_cases hcount : s₁.pending.length = s.pending.length
  · rw [runIn_add_quiet hm hcount] at hrun
    obtain ⟨rfl, rfl⟩ := Prod.mk.inj hrun
    refine ⟨hd.sound, hd.grows, fun p hp => ?_, fun _ h => (nomatch h)⟩
    cases hp
    exact areTexts_append (hparts.mono hd.grows) (areTexts_cons htext fun _ h => (nomatch h))
  · obtain ⟨added, hadded⟩ := hd.grows.pending
    have hcut := s₁.splitAt_of_append hadded.symm
    obtain ⟨parts', s₂, hmove⟩ := exists_runIn_move env (s₁.splitAt s.pending.length).2 hint parts
    rw [runIn_add_moved hm hcount hmove] at hrun
    obtain ⟨rfl, rfl⟩ := Prod.mk.inj hrun
    rw [hcut] at hmove ⊢
    have hgrows := hd.grows.cut
    have hmoved := move hhint (hparts.mono hgrows) (hd.sound.cut hadded.symm) _ _ hmove
    obtain ⟨hsound, hreadable⟩ := hd.sound.putBack_after hadded.symm hmoved.sound hmoved.grows
    refine ⟨hsound, (hgrows.trans hmoved.grows).trans (.putBack s₂ added), fun p hp => ?_,
      fun _ h => (nomatch h)⟩
    cases hp
    refine areTexts_append ((hmoved.result parts' rfl).mono (.putBack s₂ added)) ?_
    exact areTexts_cons (Emitted.mono htext hreadable) fun _ h => (nomatch h)

/-- The texts of a sequence can be read in the state behind it. -/
theorem inSequence {α : Type} {f : α → LowerM String} {as : List α} {hint : String}
    (hhint : isGeneratedHint hint)
    (h : ∀ a ∈ as, ∀ s', Grows s s' → Delivers V env s' (f a) (IsText V false)) {parts : Parts}
    (hparts : AreTexts V s parts.texts) :
    Delivers V env s (Lower.inSequence hint parts (as.map f))
      fun s' parts => AreTexts V s' parts.texts := by
  induction as generalizing s parts with
  | nil => exact .pure hparts
  | cons a as ih =>
    refine (add (h a (by simp) s (.refl s)) hhint hparts).bind fun s₁ parts hgrows hparts => ?_
    exact ih (fun b hb s' hs' => h b (by simp [hb]) s' (hgrows.trans hs')) hparts

end Delivers

/-! ### Lowering -/

/-- A call of a function of the library by its name. -/
def IsLibraryCall (env : Env) (s : FunctionState) (e : Expr) : Prop :=
  ∃ node callee name args obj, e = .call node (.ident callee name) args false ∧
    (env.binding s callee.id).object? = some obj ∧ obj.kind = .func ∧ obj.package = none

/-- A new node may be the callee. -/
theorem isLibraryCall_of_use {node callee : Node} {name : String} {args : List Expr} {obj : Object}
    (huse : s.overlay.uses.get? callee.id = some obj) (hkind : obj.kind = .func)
    (hpackage : obj.package = none) :
    IsLibraryCall env s (.call node (.ident callee name) args false) := by
  refine ⟨node, callee, name, args, obj, rfl, ?_, hkind, hpackage⟩
  unfold Env.binding
  rw [huse]
  rfl

/-- An expression whose text is flat whatever its fragment asks for. -/
def IsBare (env : Env) (s : FunctionState) (e : Expr) : Prop :=
  (env.constant? s e.id).isSome ∨ IsLibraryCall env s e

/-- What lowering makes of an expression. -/
structure IsLowered (V : Vocabulary) (env : Env) (s : FunctionState) (e : Expr) (s' : FunctionState)
    (f : Fragment) : Prop where
  sound : IsSound V s' f
  bare : IsBare env s e → IsText V true s' f.text
  /-- The names of values have no quotes. -/
  quiet : V.strict → e.unparen.isIdent → e.IsValue env.facts → IsQuiet f.text.toList

/-- **Lowering keeps to the vocabulary**, wherever and whatever is lowered. -/
def Lowers (V : Vocabulary) (self : Lowering) : Prop :=
  ∀ {env : Env}, env.Plain V → ∀ {s : FunctionState} {e : Expr}, e.Settles V env s →
    ∀ desired, Delivers V env s (self e desired) (IsLowered V env s e)

/-- What a settled expression is lowered to is sound. -/
theorem Lowers.sound {self : Lowering} (h : Lowers V self) (henv : env.Plain V) {e : Expr}
    (he : e.Settles V env s) (desired : Option GoType) :
    Delivers V env s (self e desired) (IsSound V) :=
  (h henv he desired).weaken fun _ _ _ h => h.sound

/-! ### Connectives -/

/-- What the right operand has left becomes the branch of a guard. -/
theorem FunctionState.Sound.guardRight {body : List Statement} {condition value : String}
    (env : Env) (h : s₂.Sound V) (hgrows : Grows s₁ s₂) (hpending : s₂.pending = s₁.pending ++ body)
    (hcondition : IsText V false s₁ condition) (hvalue : IsText V false s₂ value) (id : NodeId)
    (op : BinaryOp) :
    (s₂.guardRight env id op s₁.pending.length condition value).2.Sound V ∧
      Grows s₁ (s₂.guardRight env id op s₁.pending.length condition value).2 ∧
      IsReadableName V (s₂.guardRight env id op s₁.pending.length condition value).2
        (s₂.guardRight env id op s₁.pending.length condition value).1 := by
  unfold FunctionState.guardRight
  rw [s₂.splitAt_of_append hpending]
  have hcut := hgrows.cut
  have hhint : isGeneratedHint "_v" := by decide
  have hnew := Grows.newTemporary { s₂ with pending := s₁.pending } hhint
  have hname : IsNamed ("_v" ++ toString s₂.nextName) := minted_named (by decide) _
  have hsound := (h.cut hpending).of_eq hnew rfl rfl rfl rfl rfl
  -- The guard stands where its branch stood, so the branch may read what it could.
  have hgiven {w : String} (hw : Given V s₂ w) :
      Given V ({ s₂ with pending := s₁.pending }.newTemporary "_v").2 w :=
    hnew.given (V := V) hw
  have hbody := (scoped_append.mp (hpending ▸ h.pending)).2
  refine ⟨hsound.leave ⟨hname, hcondition.mono (hcut.trans hnew), ?_, ?_⟩,
    (hcut.trans hnew).trans (.leave _ _), .of_left (by decide) (List.mem_singleton_self _)⟩
  · exact hbody.mono _ fun w hw => knowing_given (hw.imp_left hgiven)
  · refine Emitted.mono hvalue fun w hw => ?_
    rcases knowing_of_readable hw with hw | hw
    · exact .inl (knowing_given (.inl (hgiven hw)))
    · rw [hpending, resultsOf_append] at hw
      exact (List.mem_append.mp hw).imp_left fun hw => knowing_given (.inr hw)

/-- A logical operation writes its operator between the operands, or leaves a guard whose name holds
the result. -/
theorem Delivers.logical {self : Lowering} (hself : Lowers V self) (henv : env.Plain V)
    {left right : Expr} (hleft : left.Settles V env s) (hright : right.Settles V env s) (e : Expr)
    (op : BinaryOp) : Delivers V env s (Lower.logical self e op left right) (IsSound V) := by
  intro hs r s' hrun
  -- The operands can fail one after the other; behind both of them the right one has left
  -- statements or not.
  rcases hl : (self left none).runIn env s with ⟨err | condition, s₁⟩
  · rw [Lower.runIn_logical_left_error hl] at hrun
    obtain ⟨rfl, rfl⟩ := Prod.mk.inj hrun
    have hd := hself henv hleft none hs _ _ hl
    exact ⟨hd.sound, hd.grows, fun _ h => (nomatch h), fun e he => hd.failure e (by cases he; rfl)⟩
  have hd₁ := hself henv hleft none hs _ _ hl
  have hright₁ := hself (henv.inRightOf e.id) ((hright.mono hd₁.grows).inRightOf e.id) none hd₁.sound
  rcases hr : (self right none).runIn (env.inRightOf e.id) s₁ with ⟨err | value, s₂⟩
  · rw [Lower.runIn_logical_right_error hl hr] at hrun
    obtain ⟨rfl, rfl⟩ := Prod.mk.inj hrun
    have hd₂ := hright₁ _ _ hr
    exact ⟨hd₂.sound, hd₁.grows.trans hd₂.grows, fun _ h => (nomatch h),
      fun e he => hd₂.failure e (by cases he; rfl)⟩
  have hd₂ := hright₁ _ _ hr
  have hcondition := (hd₁.result condition rfl).sound
  have hvalue := (hd₂.result value rfl).sound
  rw [Lower.runIn_logical_ok hl hr] at hrun
  split at hrun <;> obtain ⟨rfl, rfl⟩ := Prod.mk.inj hrun
  · refine ⟨hd₂.sound, hd₁.grows.trans hd₂.grows, fun f hf => ?_, fun _ h => (nomatch h)⟩
    cases hf
    exact .operation (emits_joined [.put (hcondition.mono hd₂.grows).operand, .text " ",
      .put (emits_luaToken op), .text " ", .put hvalue.operand] rfl rfl)
  · obtain ⟨body, hbody⟩ := hd₂.grows.pending
    obtain ⟨hsound, hgrows, hname⟩ := FunctionState.Sound.guardRight env hd₂.sound hd₂.grows hbody.symm
      hcondition.text hvalue.text e.id op
    refine ⟨hsound, hd₁.grows.trans hgrows, fun f hf => ?_, fun _ h => (nomatch h)⟩
    cases hf
    exact .atom hname.text

end

end GoLua
