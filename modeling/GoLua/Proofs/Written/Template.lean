import GoLua.Proofs.Template.SingleEvaluation
import GoLua.Proofs.Written.Pattern
import GoLua.Proofs.Written.Step

/-!
# Templates keep to the vocabulary

A pattern that has a shape is well formed, its placeholders fit its operands, and it renders to text of
the grammar: each operand is written in the grammar, by its text or by the name of a local, and the
shape tells what comes of putting these into the pattern (`Delivers.renderAs`).
-/

namespace GoLua

open Lua Template

section

variable {V : Vocabulary} {env : Env} {s s' : FunctionState} {self : Lowering}

/-- What is related to each of several things. -/
theorem exists_of_forall₂ {α β : Type} {R : α → β → Prop} {as : List α} {bs : List β}
    (h : List.Forall₂ R as bs) {b : β} (hb : b ∈ bs) : ∃ a ∈ as, R a b := by
  induction h with
  | nil => cases hb
  | @cons a b' as bs hab _ ih =>
    rcases List.mem_cons.mp hb with rfl | hb
    · exact ⟨a, by simp, hab⟩
    · obtain ⟨a', ha', h⟩ := ih hb
      exact ⟨a', by simp [ha'], h⟩

/-! ### Operands -/

/-- An operand of a shape. -/
def Operand.IsShaped (V : Vocabulary) (env : Env) (s : FunctionState) : Operand → OperandShape → Prop
  | .expr e, .value => e.Settles V env s
  | .lowered f, .value => IsSound V s f
  | .text t, .text flat tail =>
    IsText V flat s t ∧ (tail = true → t.toList.head?.any isNameChar = false)
  | .operator _, .operator => True
  | _, _ => False

/-- A settled expression has the shape of a value. -/
theorem Operand.IsShaped.expr {e : Expr} (h : e.Settles V env s) :
    Operand.IsShaped V env s (.expr e) .value :=
  h

/-- So does a sound fragment. -/
theorem Operand.IsShaped.lowered {f : Fragment} (h : IsSound V s f) :
    Operand.IsShaped V env s (.lowered f) .value :=
  h

/-- A text has the shape of a text, flat or not. -/
theorem Operand.IsShaped.text {flat : Bool} {t : String} (h : IsText V flat s t) :
    Operand.IsShaped V env s (.text t) (.text flat false) :=
  ⟨h, fun h => by cases h⟩

theorem Operand.IsShaped.operator (op : BinaryOp) : Operand.IsShaped V env s (.operator op) .operator :=
  trivial

/-- The shape of an operand does not change as the state grows. -/
theorem Operand.IsShaped.mono {o : Operand} {shape : OperandShape} (h : o.IsShaped V env s shape)
    (hgrows : Grows s s') : o.IsShaped V env s' shape := by
  cases o with
  | expr e => cases shape <;> first | exact Expr.Settles.mono h hgrows | exact h
  | lowered f => cases shape <;> first | exact IsSound.mono h hgrows | exact h
  | text t => cases shape <;> first | exact h.imp_left (·.mono hgrows) | exact h
  | int n => cases shape <;> exact h
  | operator op => cases shape <;> exact h

/-- Settled expressions all have the shape of a value. -/
theorem areShaped_expr {es : List Expr} (h : ∀ e ∈ es, e.Settles V env s) :
    List.Forall₂ (Operand.IsShaped V env s) (es.map .expr) (List.replicate es.length .value) := by
  induction es with
  | nil => exact .nil
  | cons e es ih => exact .cons (h e (by simp)) (ih fun e he => h e (by simp [he]))

/-- Sound fragments do too. -/
theorem areShaped_lowered {fs : List Fragment} (h : ∀ f ∈ fs, IsSound V s f) :
    List.Forall₂ (Operand.IsShaped V env s) (fs.map .lowered) (List.replicate fs.length .value) := by
  induction fs with
  | nil => exact .nil
  | cons f fs ih => exact .cons (h f (by simp)) (ih fun f hf => h f (by simp [hf]))

/-- An operand that has a shape. -/
def Operand.IsFit (V : Vocabulary) (env : Env) (s : FunctionState) (o : Operand) : Prop :=
  ∃ shape, o.IsShaped V env s shape

/-- The name and the value of a local. -/
structure LocalBinding.Fits (V : Vocabulary) (s : FunctionState) (b : LocalBinding) : Prop where
  name : IsBindableName V s b.name
  value : IsText V false s b.value

/-- A binding fits later on. -/
theorem LocalBinding.Fits.mono {b : LocalBinding} (h : LocalBinding.Fits V s b)
    (hgrows : Grows s s') : LocalBinding.Fits V s' b :=
  ⟨h.name.mono hgrows, h.value.mono hgrows⟩

/-- What a slot is bound to: a local, if it is an expression that has to be bound. -/
structure Template.Slot.IsBoundTo (V : Vocabulary) (s : FunctionState) (slot : Slot)
    (b : Option LocalBinding) : Prop where
  fits : ∀ binding, b = some binding → LocalBinding.Fits V s binding
  isSome : ∀ e, slot.operand = .expr e → slot.binds → b.isSome

/-- So does the binding of a slot. -/
theorem Template.Slot.IsBoundTo.mono {slot : Slot} {b : Option LocalBinding} (h : slot.IsBoundTo V s b)
    (hgrows : Grows s s') : slot.IsBoundTo V s' b :=
  ⟨fun binding hb => (h.fits binding hb).mono hgrows, h.isSome⟩

namespace Delivers

/-- Whether an operand may be repeated is only looked up. -/
theorem isRepeatable (o : Operand) :
    Delivers V env s (Template.isRepeatable o) fun _ _ => True :=
  of_still (Template.runIn_isRepeatable env s o) (fun _ _ _ => trivial) fun _ h => (nomatch h)

/-- A slot that has to be bound is, to a sound value under a generated name. -/
theorem bindSlot (hself : Lowers V self) (henv : env.Plain V) {slot : Slot}
    (h : slot.operand.IsFit V env s) :
    Delivers V env s (Template.bindSlot self slot) (slot.IsBoundTo V) := by
  have hname {s : FunctionState} :
      Delivers V env s (Lower.newLocal "_t") (IsBindableName V) :=
    newLocal (by decide) (by decide)
  obtain ⟨shape, h⟩ := h
  -- A slot that needs no name is left alone, and then its operand does not bind. Otherwise the
  -- operand is an expression or a fragment; texts and operators never bind.
  refine ite (fun hfree => .pure ⟨fun _ h => (nomatch h), fun e he hbinds => ?_⟩) fun _ => ?_
  · unfold Slot.binds at hbinds
    rcases Bool.or_eq_true_iff.mp hfree with hfree | hfree <;> simp_all
  split
  · next e he =>
    rw [he] at h
    cases shape with
    | value =>
      refine (hself.sound henv h none).bind fun s₁ value hgrows hvalue => ?_
      refine hname.bind fun s₂ name hgrows' hname => .pure ⟨fun binding hbinding => ?_, fun _ _ _ => rfl⟩
      cases hbinding
      exact ⟨hname, (hvalue.mono hgrows').text⟩
    | _ => exact h.elim
  · next f hf =>
    rw [hf] at h
    cases shape with
    | value =>
      refine hname.bind fun s₁ name hgrows hname => .pure ⟨fun binding hbinding => ?_, fun _ _ _ => rfl⟩
      cases hbinding
      exact ⟨hname, (IsSound.mono h hgrows).text⟩
    | _ => exact h.elim
  · next hexpr _ => exact .pure ⟨fun _ h => (nomatch h), fun e he => absurd he (hexpr e)⟩

/-! ### Placeholders -/

/-- A name of a local, if there is one, that may be read. -/
def IsBoundIn (V : Vocabulary) (s : FunctionState) (bound : Option String) : Prop :=
  ∀ name, bound = some name → IsText V true s name

variable {o : Operand} {pattern : String} {tag : Tag} {bound : Option String}

/-- The text of an operand is the name it is bound to or its own, bracketed where needed. -/
theorem operandText (hself : Lowers V self) (henv : env.Plain V) (h : o.IsShaped V env s .value)
    (hbound : IsBoundIn V s bound) :
    Delivers V env s (Template.operandText self pattern tag o bound) (IsText V true) := by
  cases bound with
  | some name => exact .pure (hbound name rfl)
  | none =>
    cases o with
    | expr e => exact (hself.sound henv h none).bind fun s₁ f _ hf => .pure hf.operand
    | lowered f => exact .pure (Fragment.Sound.operand h)
    | _ => exact h.elim

/-- The text of an expression is what it is lowered to, or its constant if that is known. -/
theorem expressionText (hself : Lowers V self) (henv : env.Plain V) {e : Expr}
    (h : e.Settles V env s) (folded : Bool) :
    Delivers V env s (Template.expressionText self folded e) (IsText V true) := by
  refine look (Lower.runIn_constantOf env s e) fun _ => ?_
  cases hc : env.constant? s e.id with
  | none => exact (hself.sound henv h none).bind fun s₁ f _ hf => .pure hf.operand
  | some c =>
    have hbare : IsBare env s e := .inl (by rw [hc]; rfl)
    dsimp only
    split
    · exact .pure (emits_intLiteral _)
    · exact (hself henv h none).bind fun s₁ f _ hf => .pure (hf.bare hbare)

/-- Half of an operand is cut out of its text, or known. -/
theorem halfText (hself : Lowers V self) (henv : env.Plain V) (h : o.IsShaped V env s .value)
    (hbound : IsBoundIn V s bound) :
    Delivers V env s (Template.halfText self pattern tag o bound) (IsText V true) := by
  -- Whichever operand it is, the half is a shift or a mask around the text of the whole.
  have hlast (signed : Bool) : Delivers V env s (do
      let base ← Template.operandText self pattern tag o bound
      return if (tag == .high) = true then
          if signed = true then callText Support.arshift [base, "32"] else "(" ++ base ++ " >> 32)"
        else "(" ++ base ++ " & 0xFFFFFFFF)") (IsText V true) := by
    refine (operandText hself henv h hbound).bind fun s₁ base _ hbase => .pure ?_
    split
    · split
      · refine emits_callText (emits_text rfl) fun arg harg => ?_
        rcases List.mem_cons.mp harg with rfl | harg
        · exact hbase.loose
        · obtain rfl := List.mem_singleton.mp harg
          exact (emits_nat 32).loose
      · exact emits_joined [.text "(", .put hbase, .text " >> 32)"] rfl rfl
    · exact emits_joined [.text "(", .put hbase, .text " & 0xFFFFFFFF)"] rfl rfl
  unfold Template.halfText
  cases o with
  | expr e =>
    dsimp only
    rw [map_eq_pure_bind, bind_assoc]
    refine typeOf henv fun t _ => ?_
    rw [pure_bind]
    refine look (a := (env.constant? s e.id).bind Constant.toInt?) rfl fun _ => ?_
    cases (env.constant? s e.id).bind Constant.toInt? with
    | some n => exact .pure (emits_int _)
    | none => exact hlast _
  | lowered f => exact hlast false
  | _ => exact h.elim

/-- So is a part of a complex number. -/
theorem partText (hself : Lowers V self) (henv : env.Plain V) (h : o.IsShaped V env s .value)
    (hbound : IsBoundIn V s bound) :
    Delivers V env s (Template.partText self pattern tag o bound) (IsText V true) := by
  -- A part that is not known is a field of the text.
  have hlast : Delivers V env s (do
      let base ← Template.operandText self pattern tag o bound
      return base ++ if (tag == .realPart) = true then ".real" else ".imag") (IsText V true) := by
    refine (operandText hself henv h hbound).bind fun s₁ base _ hbase => .pure ?_
    split
    · exact emits_joined [.put hbase, .text ".real"] rfl rfl
    · exact emits_joined [.put hbase, .text ".imag"] rfl rfl
  unfold Template.partText
  cases o with
  | expr e =>
    refine look (Lower.runIn_constantOf env s e) fun _ => ?_
    dsimp only
    split
    · exact .pure (emits_floatLiteral _)
    · exact hlast
  | lowered f => exact hlast
  | _ => exact h.elim

/-- What a placeholder writes of an operand that it fits. -/
theorem placeholderText (hself : Lowers V self) (henv : env.Plain V) {shape : OperandShape}
    (h : o.IsShaped V env s shape) (hbound : IsBoundIn V s bound) {w : Bool × Bool}
    (hw : shape.written? tag = some w) :
    Delivers V env s (Template.placeholderText self pattern tag o bound)
      fun s' text => IsText V w.1 s' text ∧
        (w.2 = true → text.toList.head?.any isNameChar = false) := by
  -- Only texts may have to end a name, so the clause on the next character is empty for the values.
  have hvalue {m : LowerM String} (hm : Delivers V env s m (IsText V true)) : Delivers V env s m
      fun s' text => IsText V true s' text ∧
        (false = true → text.toList.head?.any isNameChar = false) :=
    hm.weaken fun _ _ _ htext => ⟨htext, fun h => by cases h⟩
  cases shape with
  | value =>
    cases tag with
    | text | integer | operator => cases hw
    | expression | folded =>
      obtain rfl := Option.some.inj hw
      unfold Template.placeholderText
      cases bound with
      | some name => exact hvalue (.pure (hbound name rfl))
      | none =>
        cases o with
        | expr e => exact hvalue (expressionText hself henv h _)
        | lowered f => exact hvalue (.pure (Fragment.Sound.operand h))
        | _ => exact h.elim
    | high | low =>
      obtain rfl := Option.some.inj hw
      exact hvalue (halfText hself henv h hbound)
    | realPart | imagPart =>
      obtain rfl := Option.some.inj hw
      exact hvalue (partText hself henv h hbound)
  | text flat tail =>
    cases tag <;> cases hw
    cases o <;> first | exact .pure h | exact h.elim
  | operator =>
    cases tag <;> cases hw
    cases o <;> first | exact .pure ⟨emits_luaToken _, fun h => by cases h⟩ | exact h.elim

/-- The name that an operand has been given may be read. -/
theorem isBoundIn_withNames {slots : List Slot} {locals : List (Option LocalBinding)}
    (hlocals : List.Forall₂ (Slot.IsBoundTo V s) slots locals) (index : Nat) :
    IsBoundIn V s ((locals[index]?.join).map LocalBinding.name) := by
  intro name hname
  obtain ⟨binding, hbinding, rfl⟩ := Option.map_eq_some_iff.mp hname
  cases hb : locals[index]? with
  | none => simp [hb] at hbinding
  | some b =>
    rw [hb] at hbinding
    obtain ⟨slot, -, hslot⟩ := exists_of_forall₂ hlocals (List.mem_of_getElem? hb)
    exact (hslot.fits binding hbinding).name.text

/-- The name of an operand is found at its own index. -/
theorem getElem?_withNames {operands : List Operand} {locals : List (Option LocalBinding)}
    {index : Nat} (ho : operands[index]? = some o) :
    (Template.withNames operands locals)[index]? =
      some (o, (locals[index]?.join).map LocalBinding.name) := by
  simp [Template.withNames, List.getElem?_zipIdx, ho]

/-- A piece of a pattern whose placeholders fit, with the operands and their names. -/
theorem pieceText (hself : Lowers V self) (henv : env.Plain V) {shapes : List OperandShape}
    {operands : List Operand} (hoperands : List.Forall₂ (Operand.IsShaped V env s) operands shapes)
    {slots : List Slot} {locals : List (Option LocalBinding)}
    (hlocals : List.Forall₂ (Slot.IsBoundTo V s) slots locals)
    {q : Piece} (hq : ∀ digits index tag, q = .placeholder digits index tag →
      ∃ w, shapes[index]?.bind (·.written? tag) = some w) :
    Delivers V env s (Template.pieceText self pattern (Template.withNames operands locals) q)
      fun s' text => q.IsWritten V (Readable V s') shapes text := by
  -- Literal text and percent signs write themselves. A placeholder looks up its operand, which has
  -- the shape the check of the pattern asked for.
  cases q with
  | literal cs => exact .pure rfl
  | percent => exact .pure trivial
  | placeholder digits index tag =>
    obtain ⟨w, hw⟩ := hq digits index tag rfl
    obtain ⟨shape, hshape, hwritten⟩ := Option.bind_eq_some_iff.mp hw
    obtain ⟨o, ho, hfits⟩ : ∃ o, operands[index]? = some o ∧ o.IsShaped V env s shape := by
      obtain ⟨hlt, rfl⟩ := List.getElem?_eq_some_iff.mp hshape
      have hlt' : index < operands.length := hoperands.length_eq ▸ hlt
      exact ⟨operands[index], List.getElem?_eq_getElem hlt', hoperands.get hlt' hlt⟩
    simp only [Template.pieceText, getElem?_withNames ho]
    refine (placeholderText hself henv hfits (isBoundIn_withNames hlocals index) hwritten).weaken
      fun s₁ text _ htext w' h => ?_
    cases hw.symm.trans h
    exact htext

/-! ### Templates -/

/-- Rendering by pieces: what is known of the texts of the pieces makes their whole a text. -/
theorem renderPieces (hself : Lowers V self) (henv : env.Plain V) {parens : Bool}
    (flat : Bool) {operands : List Operand} (hoperands : ∀ o ∈ operands, o.IsFit V env s) {ps : List Piece}
    (hparse : parse operands.length pattern = .ok ps)
    {W : FunctionState → Piece → String → Prop}
    (hW : ∀ {s s' q text}, Grows s s' → W s q text → W s' q text)
    (hpieces : ∀ s' locals, Grows s s' →
      List.Forall₂ (Slot.IsBoundTo V s')
        (bindingRange (operands.zipIdx.map (slotOf (env.isConstant s) ps))) locals →
      ∀ q ∈ ps, Delivers V env s'
        (Template.pieceText self pattern (Template.withNames operands locals) q) fun s' => W s' q)
    (hbody : ∀ s' texts, Grows s s' → List.Forall₂ (W s') ps texts →
      IsText V flat s' (String.join texts))
    (hflat : parens = false → flat = true) :
    Delivers V env s (Template.renderAs parens self pattern operands) (IsSound V) := by
  unfold Template.renderAs
  rw [hparse]
  -- The slots are looked up, bound and then written; the state grows at each step and keeps what
  -- was known before.
  refine look (Template.runIn_slots env s operands ps) fun _ => ?_
  have hslot : ∀ slot ∈ bindingRange (operands.zipIdx.map (slotOf (env.isConstant s) ps)),
      slot.operand.IsFit V env s := by
    intro slot hmem
    obtain ⟨rest, happend, -⟩ :=
      exists_bindingRange_append (operands.zipIdx.map (slotOf (env.isConstant s) ps))
    have hmem : slot ∈ operands.zipIdx.map (slotOf (env.isConstant s) ps) := by
      rw [happend]
      exact List.mem_append_left _ hmem
    obtain ⟨o, ho, rfl⟩ := List.mem_map.mp hmem
    exact hoperands o.1 (List.fst_mem_of_mem_zipIdx ho)
  have hbound := mapM (P := fun slot s' b => slot.IsBoundTo V s' b) (fun hgrows h => h.mono hgrows)
    fun slot hmem s' hgrows => (bindSlot hself henv ((hslot slot hmem).imp fun _ h => h.mono hgrows) :
      Delivers V env s' _ _)
  refine hbound.bind fun s₁ locals hgrows₁ hlocals => ?_
  have htexts := mapM (P := fun q s' text => W s' q text) (fun hgrows h => hW hgrows h)
    fun q hq s' hgrows => hpieces s' locals (hgrows₁.trans hgrows)
      (hlocals.imp fun _ _ h => h.mono hgrows) q hq
  refine htexts.bind fun s₂ texts hgrows₂ htexts => ?_
  have htext := hbody s₂ texts (hgrows₁.trans hgrows₂) htexts
  split
  · exact .pure ⟨htext.loose, fun h => hflat h ▸ htext⟩
  · refine .pure (.atom (emits_withLocals (fun b hb => ?_) htext))
    obtain ⟨found, hfound, rfl⟩ := List.mem_filterMap.mp hb
    obtain ⟨slot, -, hslot⟩ := exists_of_forall₂ hlocals hfound
    have hfits := (hslot.fits b rfl).mono hgrows₂
    exact ⟨hfits.name.generated, hfits.name.text, hfits.value⟩

/-- **Rendering.** A pattern that has a shape renders to text of the grammar, whatever its operands
are; to flat text, if the shape is flat. -/
theorem renderAs (hself : Lowers V self) (henv : env.Plain V) {parens : Bool}
    {operands : List Operand} {shapes : List OperandShape}
    (hoperands : List.Forall₂ (Operand.IsShaped V env s) operands shapes)
    (parts : List (Part V (Readable V s))) (hparts : ∀ p ∈ parts, IsInsertable p)
    (hflat : (patternFlat shapes (parts.map stretchOf)).any (parens || ·))
    (hpattern : pattern = joined parts) :
    Delivers V env s (Template.renderAs parens self pattern operands) (IsSound V) := by
  -- The check went through the pattern once; the same cut gives the pieces the renderer reads.
  obtain ⟨flat, hshape, hflat⟩ := (Option.any_eq_true ..).mp hflat
  obtain ⟨atoms, hatoms, hscan⟩ := Option.bind_eq_some_iff.mp hshape
  obtain ⟨items, hitems, hatoms⟩ := exists_items hatoms
  have hparse : parse operands.length pattern = .ok (piecesOf items) := by
    rw [hpattern, hoperands.length_eq]
    exact parse_joined hparts hitems
  refine renderPieces hself henv flat (fun o ho => ?_) hparse
    (W := fun s' q text => q.IsWritten V (Readable V s') shapes text)
    (fun {_ _ q _} hgrows h => ?_) (fun s' locals hgrows hlocals q hq => ?_)
    (fun s' texts hgrows htexts => ?_) fun h => by simpa [h] using hflat
  · obtain ⟨shape, -, hshape⟩ := exists_of_forall₂ hoperands.flip ho
    exact ⟨shape, hshape⟩
  · cases q with
    | placeholder digits index tag =>
      exact fun w hw => (h w hw).imp_left fun htext => Emitted.mono htext fun _ => hgrows.readable
    | _ => exact h
  · refine pieceText hself henv (hoperands.imp fun o shape h => h.mono hgrows) hlocals ?_
    rintro digits index tag rfl
    exact fits_of_atomsOf hatoms hq
  · refine emitted_of_scan hscan (hasShape_of_isWritten hatoms (fun item hitem => ?_) htexts)
    exact (isEmitted_cut hitems item hitem).mono fun _ => hgrows.readable

/-- A pattern around one inserted text. -/
theorem renderAround (hself : Lowers V self) (henv : env.Plain V) {parens : Bool}
    {operands : List Operand} (front : String) (shapes : List OperandShape)
    (hoperands : List.Forall₂ (Operand.IsShaped V env s) operands shapes) {text back : String}
    (htext : IsText V true s text) (hinert : Inert text)
    (hflat : (patternFlat shapes [.text front, .insert true false, .text back]).any (parens || ·)) :
    Delivers V env s (Template.renderAs parens self (front ++ text ++ back) operands)
      (IsSound V) := by
  refine renderAs hself henv hoperands [.text front, .put htext, .text back] (fun p hp => ?_) hflat rfl
  simp only [List.mem_cons, List.not_mem_nil, or_false] at hp
  rcases hp with rfl | rfl | rfl
  · trivial
  · exact hinert
  · trivial

/-- A fixed pattern of several operands. -/
theorem renderFixed (hself : Lowers V self) (henv : env.Plain V) {parens : Bool}
    {operands : List Operand} (shapes : List OperandShape)
    (hoperands : List.Forall₂ (Operand.IsShaped V env s) operands shapes)
    (hflat : (patternFlat shapes [.text pattern]).any (parens || ·)) :
    Delivers V env s (Template.renderAs parens self pattern operands) (IsSound V) :=
  renderAs hself henv hoperands [.text pattern]
    (fun p hp => by cases List.mem_singleton.mp hp; trivial) hflat rfl

/-- A fixed pattern of one operand. -/
theorem renderOne (hself : Lowers V self) (henv : env.Plain V) {parens : Bool}
    (h : o.IsShaped V env s .value) (hflat : (patternFlat [.value] [.text pattern]).any (parens || ·)) :
    Delivers V env s (Template.renderAs parens self pattern [o]) (IsSound V) :=
  renderFixed hself henv [.value] (.cons h .nil) hflat

/-- A fixed pattern of two operands. -/
theorem renderTwo (hself : Lowers V self) (henv : env.Plain V) {parens : Bool} {o' : Operand}
    (h : o.IsShaped V env s .value) (h' : o'.IsShaped V env s .value)
    (hflat : (patternFlat [.value, .value] [.text pattern]).any (parens || ·)) :
    Delivers V env s (Template.renderAs parens self pattern [o, o']) (IsSound V) :=
  renderFixed hself henv [.value, .value] (.cons h (.cons h' .nil)) hflat

end Delivers

end

end GoLua
