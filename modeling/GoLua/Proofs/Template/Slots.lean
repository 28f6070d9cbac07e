import GoLua.Proofs.Tree
import GoLua.Template.Render

/-!
# Which operands of a template are bound

A template binds its operands to locals up to the last one that must be. This module says what that
leaves: an operand that is neither bound nor repeatable is written once at most (`uses_le_one`). It
also counts the references of a pattern by operands instead of by pieces (`sumOf_charge`), so that a
bound on each operand becomes a bound on the whole pattern.
-/

namespace GoLua

/-- Whether an operand may be written again and again, given which nodes are constants. -/
def Operand.isRepeatable (constant : NodeId → Bool) : Operand → Bool
  | .expr e => e.unparen.isIdent || constant e.id
  | .lowered f => Lua.isName f.text || isNumeral f.text
  | .text _ | .int _ | .operator _ => true

namespace Template

/-- Whether an operand is bound where the binding range reaches it. -/
def Slot.binds (s : Slot) : Bool :=
  s.uses != 0 && !s.repeatable

/-- The slot of an operand at a place, given which nodes are constants. -/
def slotOf (constant : NodeId → Bool) (ps : List Piece) (o : Operand × Nat) : Slot :=
  ⟨o.1, useCount o.2 ps, o.1.isRepeatable constant⟩

/-- A slot is made for each operand. -/
theorem getElem?_slotOf {constant : NodeId → Bool} {ps : List Piece} {operands : List Operand}
    {i : Nat} :
    (operands.zipIdx.map (slotOf constant ps))[i]? =
      operands[i]?.map fun o => slotOf constant ps (o, i) := by
  rw [List.getElem?_map, List.getElem?_zipIdx, Option.map_map]
  simp [Function.comp_def]

/-! ### The binding range -/

/-- The binding range is the start of the slots, and nothing behind it must be bound. -/
theorem exists_bindingRange_append (slots : List Slot) :
    ∃ rest, slots = bindingRange slots ++ rest ∧ ∀ s ∈ rest, s.mustBind = false := by
  refine ⟨(slots.reverse.takeWhile fun s => !s.mustBind).reverse, ?_, fun s hs => ?_⟩
  · rw [bindingRange, ← List.reverse_append, List.takeWhile_append_dropWhile, List.reverse_reverse]
  · have h := List.all_eq_true.mp List.all_takeWhile s (List.mem_reverse.mp hs)
    simpa using h

/-- The range is the front of the slots. -/
theorem getElem?_bindingRange {slots : List Slot} {i : Nat} (h : i < (bindingRange slots).length) :
    (bindingRange slots)[i]? = slots[i]? := by
  obtain ⟨rest, hslots, -⟩ := exists_bindingRange_append slots
  conv => rhs; rw [hslots]
  exact (List.getElem?_append_left h).symm

theorem length_bindingRange_le (slots : List Slot) : (bindingRange slots).length ≤ slots.length := by
  obtain ⟨rest, hslots, -⟩ := exists_bindingRange_append slots
  conv => rhs; rw [hslots, List.length_append]
  exact Nat.le_add_right _ _

/-- A slot behind the binding range need not be bound. -/
theorem mustBind_of_length_le {slots : List Slot} {i : Nat} {s : Slot} (hs : slots[i]? = some s)
    (hi : (bindingRange slots).length ≤ i) : s.mustBind = false := by
  obtain ⟨rest, hslots, hrest⟩ := exists_bindingRange_append slots
  rw [hslots, List.getElem?_append_right hi] at hs
  exact hrest s (List.mem_of_getElem? hs)

/-- The last slot of the binding range must be bound. -/
theorem mustBind_of_getLast? {slots : List Slot} {s : Slot}
    (h : (bindingRange slots).getLast? = some s) : s.mustBind := by
  have hhead := List.head?_dropWhile_not (fun s : Slot => !s.mustBind) slots.reverse
  unfold bindingRange at h
  rw [List.getLast?_reverse] at h
  rw [h] at hhead
  simpa using hhead

/-- The binding range reaches up to the last slot that must be bound. -/
theorem lt_length_bindingRange_iff {slots : List Slot} {i : Nat} :
    i < (bindingRange slots).length ↔ ∃ j s, i ≤ j ∧ slots[j]? = some s ∧ s.mustBind := by
  constructor
  · intro hi
    -- The last slot of the range is such a slot.
    have hj : (bindingRange slots).length - 1 < (bindingRange slots).length := by omega
    obtain ⟨s, hs⟩ : ∃ s, (bindingRange slots)[(bindingRange slots).length - 1]? = some s :=
      ⟨_, List.getElem?_eq_getElem hj⟩
    have hlast : (bindingRange slots).getLast? = some s := by
      rw [List.getLast?_eq_getElem?, hs]
    refine ⟨_, s, Nat.le_sub_one_of_lt hi, ?_, mustBind_of_getLast? hlast⟩
    rw [← getElem?_bindingRange hj, hs]
  · rintro ⟨j, s, hij, hs, hmust⟩
    rcases Nat.lt_or_ge i (bindingRange slots).length with hi | hi
    · exact hi
    · have hfree := mustBind_of_length_le hs (Nat.le_trans hi hij)
      rw [hmust] at hfree
      cases hfree

/-- **Single use.** What is not bound is repeatable or is written at most once. -/
theorem uses_le_one {slots : List Slot} {i : Nat} {s : Slot} (hs : slots[i]? = some s)
    (hi : i < (bindingRange slots).length → s.binds = false) : s.repeatable ∨ s.uses ≤ 1 := by
  by_cases h : i < (bindingRange slots).length
  · have hb := hi h
    simp only [Slot.binds, Bool.and_eq_false_iff, bne_eq_false_iff_eq, Bool.not_eq_false'] at hb
    exact hb.elim (fun h0 => .inr (by omega)) .inl
  · have hm := mustBind_of_length_le hs (Nat.le_of_not_lt h)
    simp only [Slot.mustBind, Bool.and_eq_false_iff, decide_eq_false_iff_not, Bool.not_eq_false']
      at hm
    exact hm.elim (fun h1 => .inr (by omega)) .inl

/-! ### References by operands -/

/-- What a piece is charged if each reference to an operand costs what the operand does. -/
def Piece.charge (cost : Nat → Nat) : Piece → Nat
  | .placeholder _ i tag => if tag.evaluates then cost i else 0
  | _ => 0

/-- Of all places, one counts. -/
theorem sumOf_range_single (cost : Nat → Nat) (j n : Nat) (h : n ≤ j → cost j = 0) :
    sumOf (fun i => (if j = i then 1 else 0) * cost i) (List.range n) = cost j := by
  induction n with
  | zero => simp [h]
  | succ n ih =>
    rw [List.range_succ, sumOf_append]
    -- The place is the last one, and then none before it counts, or it is among those before.
    by_cases hj : j = n
    · subst hj
      have hbefore : sumOf (fun i => (if j = i then 1 else 0) * cost i) (List.range j) = 0 := by
        refine sumOf_eq_zero fun i hi => ?_
        have hne : j ≠ i := (Nat.ne_of_lt (List.mem_range.mp hi)).symm
        rw [if_neg hne, Nat.zero_mul]
      rw [hbefore]
      simp
    · rw [ih fun hle => h (by omega)]
      simp [hj]

/-- Uses are counted piece by piece. -/
theorem useCount_cons (i : Nat) (q : Piece) (ps : List Piece) :
    useCount i (q :: ps) = useCount i [q] + useCount i ps := by
  simp only [useCount, List.countP_cons, List.countP_nil]
  omega

/-- A piece is charged for the operand that it refers to. -/
theorem charge_eq_sumOf (cost : Nat → Nat) (n : Nat) (hcost : ∀ i, n ≤ i → cost i = 0)
    (q : Piece) : q.charge cost = sumOf (fun i => useCount i [q] * cost i) (List.range n) := by
  have hnone (hq : ∀ i, useCount i [q] = 0) :
      sumOf (fun i => useCount i [q] * cost i) (List.range n) = 0 :=
    sumOf_eq_zero fun i _ => by rw [hq i, Nat.zero_mul]
  cases q with
  | literal | percent => exact (hnone fun i => rfl).symm
  | placeholder digits j tag =>
    cases htag : tag.evaluates with
    | true =>
      rw [Piece.charge, if_pos htag, ← sumOf_range_single cost j n (hcost j)]
      exact sumOf_congr fun i _ => by simp [useCount, List.countP_cons, htag]
    | false =>
      rw [hnone fun i => by simp [useCount, htag]]
      simp [Piece.charge, htag]

/-- The charges of all pieces, operand by operand. -/
theorem sumOf_charge (cost : Nat → Nat) (n : Nat) (hcost : ∀ i, n ≤ i → cost i = 0)
    (ps : List Piece) :
    sumOf (Piece.charge cost) ps = sumOf (fun i => useCount i ps * cost i) (List.range n) := by
  induction ps with
  | nil => exact (sumOf_eq_zero fun i _ => Nat.zero_mul _).symm
  | cons q ps ih =>
    rw [sumOf_cons, ih, charge_eq_sumOf cost n hcost, ← sumOf_add]
    refine sumOf_congr fun i _ => ?_
    rw [useCount_cons i q ps, Nat.add_mul]

/-- The sum over a list, by its places. -/
theorem sumOf_eq_range {α : Type} (f : α → Nat) (as : List α) {n : Nat} (h : as.length ≤ n) :
    sumOf f as = sumOf (fun i => (as[i]?.map f).getD 0) (List.range n) := by
  induction as generalizing n with
  | nil => exact (sumOf_eq_zero fun i _ => rfl).symm
  | cons a as ih =>
    obtain ⟨n, rfl⟩ : ∃ k, n = k + 1 := ⟨n - 1, by simp at h; omega⟩
    rw [List.range_succ_eq_map, sumOf_cons, sumOf_cons, sumOf_map, ih (by simpa using h)]
    simp

end Template

end GoLua
