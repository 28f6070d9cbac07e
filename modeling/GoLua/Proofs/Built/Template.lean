import GoLua.Proofs.Built.Facts
import GoLua.Proofs.Template.Slots

/-!
# Templates spend what their operands cost

However often a pattern refers to its operands, rendering it costs no more than lowering each operand
once (`Built.renderAs`). An operand that costs something is bound to a local, which lowers it once,
or is written at most once.
-/

namespace GoLua

open Template

/-! ### Operands -/

namespace Setting

variable (S : Setting)

/-- What it costs to write an operand. -/
def price : Operand → Nat
  | .expr e => S.prices.price e
  | _ => 0

/-- What may be repeated costs nothing. -/
theorem price_eq_zero_of_repeatable {o : Operand} (h : o.isRepeatable S.prices.constant) :
    S.price o = 0 := by
  cases o with
  | expr e =>
    rcases (Bool.or_eq_true _ _).mp h with h | h
    · exact S.prices.price_eq_zero_of_isIdent h
    · exact S.prices.price_eq_zero_of_constant h
  | _ => rfl

end Setting

/-- An operand that a computation may use. -/
def Operand.Fits (S : Setting) (I : NodeId → Prop) : Operand → Prop
  | .expr e => e.Fits S I
  | _ => True

namespace Built

variable {S : Setting} {I : NodeId → Prop} {w : Nat}

/-- Whether an operand may be repeated is known by the prices. -/
theorem isRepeatable {o : Operand} (h : o.Fits S I) :
    Built S I 0 (Template.isRepeatable o) fun b => b = o.isRepeatable S.prices.constant := by
  cases o with
  | expr e => exact isRepeatableExpr h.id
  | _ => exact .pure rfl

/-! ### Bound operands -/

/-- The slots of a pattern are those of its operands. -/
theorem slots {operands : List Operand} (ps : List Piece) (h : ∀ o ∈ operands, o.Fits S I) :
    Built S I 0 (operands.zipIdx.mapM (slotFor ps))
      fun slots => slots = operands.zipIdx.map (slotOf S.prices.constant ps) := by
  have hslot : ∀ o ∈ operands.zipIdx,
      Built S I 0 (slotFor ps o) fun slot => slotOf S.prices.constant ps o = slot := fun o ho =>
    (isRepeatable (h o.1 (List.fst_mem_of_mem_zipIdx ho))).free fun b hb => .pure (by rw [hb, slotOf])
  refine (mapM_forall₂ hslot).weaken ?_ fun slots hslots => ?_
  · exact Nat.le_of_eq (sumOf_eq_zero fun _ _ => rfl)
  · rw [← List.forall₂_eq_eq_eq]
    exact (List.forall₂_map_left_iff.mpr hslots).flip.imp fun _ _ h => h.symm

/-- Binding a slot lowers its operand, and gives a name exactly if the slot is to be bound. -/
theorem bindSlot {s : Slot} (h : s.operand.Fits S I)
    (hs : s.repeatable = s.operand.isRepeatable S.prices.constant) :
    Built S I (if s.binds then S.price s.operand else 0) (Template.bindSlot S.self s)
      fun b => b.isSome = s.binds := by
  obtain ⟨operand, uses, repeatable⟩ := s
  unfold Template.bindSlot
  -- A slot that is skipped keeps its operand for later; one that is bound pays for it here.
  cases hb : Slot.binds ⟨operand, uses, repeatable⟩ with
  | false =>
    have hskip : (uses == 0 || repeatable) = true := by
      simpa [Slot.binds, or_iff_not_imp_left] using hb
    rw [if_pos hskip]
    exact .pure rfl
  | true =>
    have hgo : ¬ (uses == 0 || repeatable) = true := by simpa [Slot.binds] using hb
    rw [if_neg hgo, if_pos rfl]
    cases operand with
    | expr e =>
      refine (lower h none).seq (Nat.le_refl _) fun value _ => ?_
      exact (newLocal "_t").free fun name _ => .pure rfl
    | lowered f => exact (newLocal "_t").free fun name _ => .pure rfl
    | _ =>
      change repeatable = true at hs
      simp [hs] at hgo

/-! ### Placeholders -/

theorem malformed {α : Type} {pattern : String} {fault : TemplateFault} :
    Builds S I w (Lower.fail (.malformedTemplate pattern fault) : LowerM α) :=
  (Built.fail fun _ _ h => by cases h).spending (Nat.zero_le w)

theorem mismatch {pattern : String} {tag : Tag} {need : OperandNeed} :
    Builds S I w (Template.mismatch pattern tag need) :=
  malformed

/-- What is left to pay for an operand once it may have a name. -/
def unboundPrice (S : Setting) (o : Operand) (bound : Option String) : Nat :=
  if bound.isSome then 0 else S.price o

/-- An operand that is bound costs nothing where its name stands. -/
theorem operandText {o : Operand} (h : o.Fits S I) (pattern : String) (tag : Tag)
    (bound : Option String) :
    Builds S I (unboundPrice S o bound) (Template.operandText S.self pattern tag o bound) := by
  cases bound with
  | some name => exact .pure trivial
  | none =>
    cases o with
    | expr e => exact (lower h none).map Fragment.operand fun _ _ => trivial
    | lowered f => exact .pure trivial
    | _ => exact mismatch

theorem expressionText {e : Expr} (h : e.Fits S I) (folded : Bool) :
    Builds S I (S.prices.price e) (Template.expressionText S.self folded e) := by
  refine (constantOf h.id).free fun c _ => ?_
  split
  · exact (lower h none).map Fragment.operand fun _ _ => trivial
  · split
    · exact .pure trivial
    · exact (lower h none).map Fragment.text fun _ _ => trivial

/-- A half costs what its operand does. -/
theorem halfText {o : Operand} (h : o.Fits S I) (pattern : String) (tag : Tag)
    (bound : Option String) :
    Builds S I (unboundPrice S o bound) (Template.halfText S.self pattern tag o bound) := by
  have hbase := operandText h pattern tag bound
  cases o with
  | expr e =>
    refine ((typeOf h.id).map (R := fun _ => True) _ fun _ _ => trivial).free fun signed _ => ?_
    refine (intConstantOf h.id).free fun n _ => ?_
    cases n with
    | some n => exact .pure trivial
    | none => exact hbase.seq (Nat.le_refl _) fun base _ => .pure trivial
  | _ => exact hbase.seq (Nat.le_refl _) fun base _ => .pure trivial

/-- So does a part. -/
theorem partText {o : Operand} (h : o.Fits S I) (pattern : String) (tag : Tag)
    (bound : Option String) :
    Builds S I (unboundPrice S o bound) (Template.partText S.self pattern tag o bound) := by
  have hbase := operandText h pattern tag bound
  cases o with
  | expr e =>
    refine (constantOf h.id).free fun c _ => ?_
    dsimp only
    generalize (c.bind fun c => if tag == .realPart then c.re? else c.im?) = part
    cases part with
    | some x => exact .pure trivial
    | none => exact hbase.seq (Nat.le_refl _) fun base _ => .pure trivial
  | _ => exact hbase.seq (Nat.le_refl _) fun base _ => .pure trivial

/-- Only the tags that evaluate cost anything. -/
theorem placeholderText {o : Operand} (h : o.Fits S I) (pattern : String) (tag : Tag)
    (bound : Option String) :
    Builds S I (if tag.evaluates then unboundPrice S o bound else 0)
      (Template.placeholderText S.self pattern tag o bound) := by
  cases tag with
  | text | integer | operator => cases o <;> first | exact .pure trivial | exact mismatch
  | expression | folded =>
    cases bound with
    | some name => exact .pure trivial
    | none =>
      cases o with
      | expr e =>
        have hcost : unboundPrice S (.expr e) none = S.prices.price e := rfl
        simpa [Template.placeholderText, Tag.evaluates, hcost] using expressionText h _
      | lowered f => exact .pure trivial
      | _ => exact mismatch
  | high | low => exact halfText h pattern _ bound
  | realPart | imagPart => exact partText h pattern _ bound

/-- What the operand at a place costs the pieces that refer to it. -/
def placeCost (S : Setting) (named : List (Operand × Option String)) (i : Nat) : Nat :=
  (named[i]?.map fun o => unboundPrice S o.1 o.2).getD 0

/-- A piece costs what its placeholder does. -/
theorem pieceText {named : List (Operand × Option String)} (h : ∀ o ∈ named, o.1.Fits S I)
    (pattern : String) (q : Piece) :
    Builds S I (q.charge (placeCost S named)) (Template.pieceText S.self pattern named q) := by
  cases q with
  | literal text => exact .pure trivial
  | percent => exact .pure trivial
  | placeholder digits i tag =>
    simp only [Template.pieceText, Piece.charge, placeCost]
    cases ho : named[i]? with
    | none => exact malformed
    | some o => exact placeholderText (h o (List.mem_of_getElem? ho)) pattern tag o.2

/-! ### Templates -/

/-- An operand is paid for where it is bound, or by its only reference. -/
theorem bound_add_unbound_le {slots : List Slot} {bound : List (Option LocalBinding)} {i : Nat}
    {s : Slot} (hs : slots[i]? = some s)
    (hrep : s.repeatable = s.operand.isRepeatable S.prices.constant)
    (hbound : bound.map Option.isSome = (bindingRange slots).map Slot.binds) :
    (((bindingRange slots)[i]?.map fun s => if s.binds then S.price s.operand else 0).getD 0) +
      s.uses * unboundPrice S s.operand ((bound[i]?.join).map LocalBinding.name)
        ≤ S.price s.operand := by
  have hname : ((bound[i]?.join).map LocalBinding.name).isSome =
      ((bindingRange slots)[i]?.map Slot.binds).getD false := by
    rw [← List.getElem?_map, ← hbound, List.getElem?_map]
    rcases bound[i]? with _ | _ | b <;> rfl
  -- Within the range, a slot pays once: when it is bound, or in its only place. Behind the range
  -- every slot is used at most once.
  by_cases hi : i < (bindingRange slots).length
  · rw [getElem?_bindingRange hi, hs] at hname ⊢
    simp only [Option.map_some, Option.getD_some] at hname ⊢
    cases hb : s.binds with
    | true => simp [unboundPrice, hname, hb]
    | false =>
      simp only [unboundPrice, hname, hb]
      rcases uses_le_one hs fun _ => hb with h | h
      · simp [S.price_eq_zero_of_repeatable (hrep ▸ h)]
      · simpa using Nat.mul_le_mul_right (S.price s.operand) h
  · rw [List.getElem?_eq_none (Nat.le_of_not_lt hi)] at hname ⊢
    simp only [Option.map_none, Option.getD_none, Nat.zero_add] at hname ⊢
    simp only [unboundPrice, hname]
    rcases uses_le_one hs fun h => absurd h hi with h | h
    · simp [S.price_eq_zero_of_repeatable (hrep ▸ h)]
    · simpa using Nat.mul_le_mul_right (S.price s.operand) h

/-- What is bound and what is written unbound cost together what the operands do. -/
theorem bound_add_charge_le {operands : List Operand} {ps : List Piece} {slots : List Slot}
    {bound : List (Option LocalBinding)}
    (hslots : slots = operands.zipIdx.map (slotOf S.prices.constant ps))
    (hbound : bound.map Option.isSome = (bindingRange slots).map Slot.binds) :
    sumOf (fun s : Slot => if s.binds then S.price s.operand else 0) (bindingRange slots) +
      sumOf (Piece.charge (placeCost S (withNames operands bound))) ps
        ≤ sumOf S.price operands := by
  have hlength : slots.length = operands.length := by simp [hslots]
  have hnone (i : Nat) (hi : operands.length ≤ i) :
      placeCost S (withNames operands bound) i = 0 := by
    simp [placeCost, withNames, List.getElem?_zipIdx, List.getElem?_eq_none hi]
  -- Both sums go over the places of the operands, where the inequality holds place by place.
  rw [sumOf_charge _ operands.length hnone, sumOf_eq_range _ (bindingRange slots)
    (hlength ▸ length_bindingRange_le slots), ← sumOf_add,
    sumOf_eq_range S.price operands (Nat.le_refl _)]
  refine sumOf_le_sumOf fun i hi => ?_
  obtain ⟨o, ho⟩ : ∃ o, operands[i]? = some o :=
    ⟨_, List.getElem?_eq_getElem (List.mem_range.mp hi)⟩
  have hs : slots[i]? = some (slotOf S.prices.constant ps (o, i)) := by
    rw [hslots, getElem?_slotOf, ho, Option.map_some]
  have hle := bound_add_unbound_le hs rfl hbound
  simpa [placeCost, withNames, List.getElem?_zipIdx, ho, slotOf] using hle

/-- Rendering costs at most what its operands cost. -/
theorem renderAs (operands : List Operand) (h : ∀ o ∈ operands, o.Fits S I) (parens : Bool)
    (pattern : String) :
    Builds S I (sumOf S.price operands) (Template.renderAs parens S.self pattern operands) := by
  unfold Template.renderAs
  cases parse operands.length pattern with
  | error fault => exact malformed
  | ok ps =>
    refine (slots ps h).free fun slots hslots => ?_
    have hbind : ∀ s ∈ bindingRange slots, Built S I (if s.binds then S.price s.operand else 0)
        (Template.bindSlot S.self s) fun b => b.isSome = s.binds := fun s hs => by
      obtain ⟨i, hi⟩ := List.getElem?_of_mem hs
      rw [getElem?_bindingRange (List.getElem?_eq_some_iff.mp hi).1, hslots, getElem?_slotOf] at hi
      obtain ⟨o, ho, rfl⟩ := Option.map_eq_some_iff.mp hi
      exact bindSlot (h _ (List.mem_of_getElem? ho)) rfl
    -- That the bindings alone can be paid for is seen with any bindings of the same places.
    have hblank : ((bindingRange slots).map fun s : Slot =>
        if s.binds then some (LocalBinding.mk "" "") else none).map Option.isSome =
          (bindingRange slots).map Slot.binds := by
      rw [List.map_map]
      refine List.map_congr_left fun s _ => ?_
      cases hs : s.binds <;> simp [hs]
    have hany := bound_add_charge_le hslots hblank
    refine (mapM_forall₂ hbind).seq (Nat.le_trans (Nat.le_add_right _ _) hany) fun bound hbound => ?_
    have hsome : bound.map Option.isSome = (bindingRange slots).map Slot.binds :=
      List.forall₂_eq_eq_eq ▸ List.forall₂_map_left_iff.mpr
        (List.forall₂_map_right_iff.mpr (hbound.flip.imp fun _ _ hb => hb))
    have hfits : ∀ o ∈ withNames operands bound, o.1.Fits S I := by
      intro o ho
      obtain ⟨⟨operand, i⟩, hmem, rfl⟩ := List.mem_map.mp ho
      exact h operand (List.fst_mem_of_mem_zipIdx hmem)
    have hcost := bound_add_charge_le hslots hsome
    refine (mapM fun q _ => pieceText hfits pattern q).seq (by omega) fun texts _ => ?_
    split <;> exact .pure trivial

theorem renderOne {e : Expr} (h : e.Fits S I) (parens : Bool) (pattern : String) :
    Builds S I (S.prices.price e) (Template.renderAs parens S.self pattern [.expr e]) := by
  have hfits : ∀ o ∈ [Operand.expr e], o.Fits S I := by simpa [Operand.Fits] using h
  exact renderAs _ hfits parens pattern

theorem renderTwo {e e' : Expr} (h : e.Fits S I) (h' : e'.Fits S I) (parens : Bool)
    (pattern : String) :
    Builds S I (S.prices.price e + S.prices.price e')
      (Template.renderAs parens S.self pattern [.expr e, .expr e']) := by
  have hfits : ∀ o ∈ [Operand.expr e, .expr e'], o.Fits S I := by
    simpa [Operand.Fits] using And.intro h h'
  exact renderAs _ hfits parens pattern

end Built

end GoLua
