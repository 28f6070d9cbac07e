import GoLua.Proofs.Brackets.Twin

/-!
# Templates with twins as operands

A template whose operands are twins is rendered alike (`mirrors_renderAs`): the same operands are bound to
locals, because that depends on what may be repeated, and each placeholder writes the same of its operand.
-/

namespace GoLua

open Lower

/-! ### Lists side by side -/

section

variable {α β : Type} {R : α → β → Prop} {as : List α} {bs : List β}

/-- Members at the same place stay together with it. -/
theorem forall₂_zipIdx (h : List.Forall₂ R as bs) (i : Nat) :
    List.Forall₂ (fun p q => R p.1 q.1 ∧ q.2 = p.2) (as.zipIdx i) (bs.zipIdx i) := by
  induction h generalizing i with
  | nil => exact .nil
  | cons hab _ ih => exact .cons ⟨hab, rfl⟩ (ih (i + 1))

/-- The same number of members is dropped where they look alike. -/
theorem forall₂_dropWhile {p : α → Bool} {q : β → Bool} (h : List.Forall₂ R as bs)
    (hpq : ∀ a b, R a b → q b = p a) :
    List.Forall₂ R (as.dropWhile p) (bs.dropWhile q) := by
  induction h with
  | nil => exact .nil
  | @cons a b _ _ hab htail ih =>
    rw [List.dropWhile_cons, List.dropWhile_cons, hpq a b hab]
    split
    · exact ih
    · exact .cons hab htail

/-- What is made of members that stand for each other is the same. -/
theorem forall₂_map_eq {γ : Type} {f : α → γ} {g : β → γ} (h : List.Forall₂ R as bs)
    (hfg : ∀ a b, R a b → g b = f a) : bs.map g = as.map f := by
  induction h with
  | nil => rfl
  | cons hab _ ih => rw [List.map_cons, List.map_cons, hfg _ _ hab, ih]

/-- With less said of what may be missing. -/
theorem rel_imp {a : Option α} {b : Option β} {R' : α → β → Prop} (h : Option.Rel R a b)
    (hR : ∀ a b, R a b → R' a b) : Option.Rel R' a b := by
  cases h with
  | none => exact .none
  | some h => exact .some (hR _ _ h)

theorem isSome_eq_of_rel {a : Option α} {b : Option β} (h : Option.Rel R a b) :
    b.isSome = a.isSome := by
  cases h <;> rfl

/-- Related lists have related elements at each index. -/
theorem forall₂_getElem? (h : List.Forall₂ R as bs) (i : Nat) : Option.Rel R as[i]? bs[i]? := by
  induction h generalizing i with
  | nil => exact .none
  | cons hab _ ih =>
    cases i with
    | zero => exact .some hab
    | succ i => exact ih i

end

namespace Template

/-- Operands of a template that stand for each other. -/
inductive OperandTwin (scene : Scene) (n m : Nat) : Operand → Operand → Prop
  | expr {c c' : Expr} (h : Twin scene n m c c') : OperandTwin scene n m (.expr c) (.expr c')
  | lowered (f : Fragment) : OperandTwin scene n m (.lowered f) (.lowered f)
  | text (s : String) : OperandTwin scene n m (.text s) (.text s)
  | int (i : Int) : OperandTwin scene n m (.int i) (.int i)
  | operator (op : BinaryOp) : OperandTwin scene n m (.operator op) (.operator op)

/-- Slots that stand for each other are bound alike. -/
structure SlotTwin (scene : Scene) (n m : Nat) (s s' : Slot) : Prop where
  operand : OperandTwin scene n m s.operand s'.operand
  uses : s'.uses = s.uses
  repeatable : s'.repeatable = s.repeatable

variable {scene : Scene} {n m : Nat} {o o' : Operand} {c c' : Expr}

/-! ### Binding -/

theorem mirrors_isRepeatable (h : OperandTwin scene n m o o') :
    Mirrors scene (isRepeatable o) (isRepeatable o') := by
  cases h with
  | expr h => exact h.isRepeatable
  | lowered | text | int | operator => exact mirrors_pure rfl

theorem mirrors_slotFor (ps : List Piece) (h : OperandTwin scene n m o o') (i : Nat) :
    MirrorsBy scene (SlotTwin scene n m) (slotFor ps (o, i)) (slotFor ps (o', i)) :=
  (mirrors_isRepeatable h).bind fun _ => mirrors_pure ⟨h, rfl, rfl⟩

theorem SlotTwin.mustBind {s s' : Slot} (h : SlotTwin scene n m s s') : s'.mustBind = s.mustBind := by
  rw [Slot.mustBind, Slot.mustBind, h.uses, h.repeatable]

/-- The binding range depends on which slots have to be bound. -/
theorem forall₂_bindingRange {slots slots' : List Slot}
    (h : List.Forall₂ (SlotTwin scene n m) slots slots') :
    List.Forall₂ (SlotTwin scene n m) (bindingRange slots) (bindingRange slots') := by
  -- The range ends with the last slot that must be bound, so it is cut from behind.
  refine List.rel_reverse (forall₂_dropWhile (List.rel_reverse h) fun s s' hs => ?_)
  rw [hs.mustBind]

/-- A slot is bound on both sides or on neither, to the same text. -/
theorem mirrors_bindSlot {s s' : Slot} (h : SlotTwin scene n m s s') :
    Mirrors scene (bindSlot (within n) s) (bindSlot (within m) s') := by
  obtain ⟨operand, uses, repeatable⟩ := s
  obtain ⟨operand', uses', repeatable'⟩ := s'
  obtain ⟨hoperand, rfl, rfl⟩ := h
  refine mirrors_ite (fun _ => mirrors_pure rfl) fun _ => ?_
  cases hoperand with
  | expr h =>
    exact (h.here none).bind fun _ => (mirrors_newLocal "_t").bind fun _ => mirrors_pure rfl
  | lowered => exact (mirrors_newLocal "_t").bind fun _ => mirrors_pure rfl
  | text | int | operator => exact mirrors_pure rfl

/-! ### Placeholders -/

/-- An operand is its name, or what it is lowered to. -/
theorem mirrors_operandText (pattern : String) (tag : Tag) (h : OperandTwin scene n m o o')
    (bound : Option String) :
    Mirrors scene (operandText (within n) pattern tag o bound)
      (operandText (within m) pattern tag o' bound) := by
  cases bound with
  | some name => exact mirrors_pure rfl
  | none =>
    cases h with
    | expr h => exact (h.here none).bind fun _ => mirrors_pure rfl
    | lowered => exact mirrors_pure rfl
    | text | int | operator => exact mirrors_fail _ _

/-- The text of an expression is known on both sides or on neither. -/
theorem mirrors_expressionText (folded : Bool) (h : Twin scene n m c c') :
    Mirrors scene (expressionText (within n) folded c) (expressionText (within m) folded c') := by
  refine (mirrors_constantOf h.alike).bind fun v => ?_
  split
  · exact (h.here none).bind fun _ => mirrors_pure rfl
  · split
    · exact mirrors_pure rfl
    · exact (h.here none).bind fun _ => mirrors_pure rfl

/-- The half of an expression depends on its type and on its value. -/
theorem mirrors_halfText (pattern : String) (tag : Tag) (h : OperandTwin scene n m o o')
    (bound : Option String) :
    Mirrors scene (halfText (within n) pattern tag o bound)
      (halfText (within m) pattern tag o' bound) := by
  have hbase := mirrors_operandText pattern tag h bound
  cases h with
  | expr h =>
    refine ((mirrors_typeOf h.alike).map _).bind fun signed => ?_
    refine (mirrors_intConstantOf h.alike).bind fun v => ?_
    cases v with
    | some _ => exact mirrors_pure rfl
    | none => exact hbase.bind fun _ => mirrors_pure rfl
  | lowered | text | int | operator => exact hbase.bind fun _ => mirrors_pure rfl

/-- So does a part of a complex number. -/
theorem mirrors_partText (pattern : String) (tag : Tag) (h : OperandTwin scene n m o o')
    (bound : Option String) :
    Mirrors scene (partText (within n) pattern tag o bound)
      (partText (within m) pattern tag o' bound) := by
  have hbase := mirrors_operandText pattern tag h bound
  cases h with
  | expr h =>
    refine (mirrors_constantOf h.alike).bind fun v => ?_
    dsimp only
    generalize (v.bind fun c => if tag == .realPart then c.re? else c.im?) = part
    cases part with
    | some _ => exact mirrors_pure rfl
    | none => exact hbase.bind fun _ => mirrors_pure rfl
  | lowered | text | int | operator => exact hbase.bind fun _ => mirrors_pure rfl

/-- A placeholder writes the same text for twins. -/
theorem mirrors_placeholderText (pattern : String) (tag : Tag) (h : OperandTwin scene n m o o')
    (bound : Option String) :
    Mirrors scene (placeholderText (within n) pattern tag o bound)
      (placeholderText (within m) pattern tag o' bound) := by
  cases tag with
  | text | integer | operator =>
    cases h <;> first
      | exact mirrors_pure rfl
      | exact mirrors_fail _ _
  | high | low => exact mirrors_halfText pattern _ h bound
  | realPart | imagPart => exact mirrors_partText pattern _ h bound
  | expression | folded =>
    -- An expression without a name is lowered here; every other operand has its text.
    cases bound with
    | some name => exact mirrors_pure rfl
    | none =>
      cases h with
      | expr h =>
        unfold placeholderText
        exact mirrors_expressionText _ h
      | lowered => exact mirrors_pure rfl
      | text | int | operator => exact mirrors_fail _ _

/-- A piece finds its operand at one index on both sides. -/
theorem mirrors_pieceText (pattern : String) {operands operands' : List (Operand × Option String)}
    (h : List.Forall₂ (fun p p' => OperandTwin scene n m p.1 p'.1 ∧ p'.2 = p.2) operands operands')
    (piece : Piece) :
    Mirrors scene (pieceText (within n) pattern operands piece)
      (pieceText (within m) pattern operands' piece) := by
  cases piece with
  | literal | percent => exact mirrors_pure rfl
  | placeholder _ index tag =>
    have hoperands := forall₂_getElem? h index
    simp only [pieceText]
    generalize operands[index]? = p at hoperands ⊢
    generalize operands'[index]? = p' at hoperands ⊢
    cases hoperands with
    | none => exact mirrors_fail _ _
    | some hp =>
      dsimp only
      rw [hp.2]
      exact mirrors_placeholderText pattern tag hp.1 _

/-! ### Templates -/

/-- Operands keep their names. -/
theorem forall₂_withNames {operands operands' : List Operand}
    (h : List.Forall₂ (OperandTwin scene n m) operands operands')
    (bound : List (Option LocalBinding)) :
    List.Forall₂ (fun p p' => OperandTwin scene n m p.1 p'.1 ∧ p'.2 = p.2)
      (withNames operands bound) (withNames operands' bound) := by
  unfold withNames
  rw [List.forall₂_map_left_iff, List.forall₂_map_right_iff]
  refine (forall₂_zipIdx h 0).imp ?_
  rintro ⟨o, i⟩ ⟨o', i'⟩ ⟨hoperand, rfl⟩
  exact ⟨hoperand, rfl⟩

/-- **Templates.** -/
theorem mirrors_renderAs (parens : Bool) (pattern : String) {operands operands' : List Operand}
    (h : List.Forall₂ (OperandTwin scene n m) operands operands') :
    Mirrors scene (renderAs parens (within n) pattern operands)
      (renderAs parens (within m) pattern operands') := by
  unfold renderAs
  rw [← h.length_eq]
  cases parse operands.length pattern with
  | error fault => exact mirrors_fail _ _
  | ok ps =>
    -- The slots decide what is bound; from the names on, both runs have the same to write.
    have hslots : MirrorsBy scene (List.Forall₂ (SlotTwin scene n m))
        (operands.zipIdx.mapM (slotFor ps)) (operands'.zipIdx.mapM (slotFor ps)) := by
      refine mirrors_mapM (forall₂_zipIdx h 0) ?_
      rintro ⟨o, i⟩ ⟨o', i'⟩ ⟨hoperand, hi⟩
      obtain rfl : i' = i := hi
      exact mirrors_slotFor ps hoperand i'
    refine hslots.bind fun slots slots' hslots => ?_
    refine Mirrors.bind (mirrors_mapM_eq (forall₂_bindingRange hslots) fun _ _ => mirrors_bindSlot)
      fun bound => ?_
    have hnamed := forall₂_withNames h bound
    refine Mirrors.bind (mirrors_mapM_same (mirrors_pieceText pattern hnamed)) fun texts => ?_
    cases bound.filterMap id <;> exact mirrors_pure rfl

end Template

section

open Template

variable {scene : Scene} {n m : Nat} {c c' d d' : Expr}

theorem mirrors_render (pattern : String) {operands operands' : List Operand}
    (h : List.Forall₂ (OperandTwin scene n m) operands operands') :
    Mirrors scene (render (within n) pattern operands) (render (within m) pattern operands') :=
  mirrors_renderAs false pattern h

theorem mirrors_renderParen (pattern : String) {operands operands' : List Operand}
    (h : List.Forall₂ (OperandTwin scene n m) operands operands') :
    Mirrors scene (renderParen (within n) pattern operands)
      (renderParen (within m) pattern operands') :=
  mirrors_renderAs true pattern h

/-- One operand. -/
theorem Twin.alone (h : Twin scene n m c c') :
    List.Forall₂ (OperandTwin scene n m) [.expr c] [.expr c'] :=
  .cons (.expr h) .nil

/-- Two operands. -/
theorem Twin.beside (h : Twin scene n m c c') (h' : Twin scene n m d d') :
    List.Forall₂ (OperandTwin scene n m) [.expr c, .expr d] [.expr c', .expr d'] :=
  .cons (.expr h) h'.alone

end

end GoLua
