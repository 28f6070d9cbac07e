import GoLua.Proofs.Integer.Literal
import GoLua.Proofs.Integer.Rules
import GoLua.Proofs.Integer.Wrapping

/-!
# Cutting when the program runs

The narrow kinds are cut twice over: constants by `wrapInteger`, with remainders of integers of any
size, and everything else by text that adds, masks and subtracts in a cell of 64 bits that wraps
itself. `cutToWidth_eq_wrapInteger` says that the two agree, for every cell that the operand may come
to; where the sum in the text leaves the cell, what is lost is a multiple of the number of words, and
the mask would drop it anyway.

A cut is left out where the kind that is converted from has no integers beyond the kind that is
converted to. That test is exact (`rangeContains_iff`), so wherever it fails some integer needs the
cut.
-/

namespace GoLua

namespace Lua

variable {globals : String → Value} {f : Fragment} {k c : Kind} {a : Exp} {v : BitVec 64}

/-! ### Cells that are cut -/

/-- What needs to be cut is kept in a cell that is wider. -/
theorem isKept_of_needsCut (hk : needsCut k) : k.isKept := by
  rw [Kind.isKept, hk, Bool.true_or]

/-- The cut of a cell holds what the integer in the cell wraps to. -/
theorem toInt_cutCell (hk : needsCut k) (v : BitVec 64) :
    (cutCell k v).toInt = wrapInteger v.toInt k := by
  have hkept := isKept_of_needsCut hk
  have hne : k ≠ .uint64 := by
    rintro rfl
    cases hk
  have hrange := inRange_wrap k v.toInt
  have hcell : cell v.toInt = v := BitVec.ofInt_toInt
  rw [wrapInteger_eq_wrap (Kind.isSized_of_isKept hkept), ← hcell, cutCell_cell hkept, hcell]
  exact toInt_cell (le_of_inRange hrange).1 (lt_of_inRange hrange hne)

/-- A cell that holds an integer of the kind is cut to itself. -/
theorem cutCell_of_inRange (hk : needsCut k) (h : k.InRange v.toInt) : cutCell k v = v := by
  apply BitVec.eq_of_toInt_eq
  rw [toInt_cutCell hk, wrapInteger_eq_wrap (Kind.isSized_of_isKept (isKept_of_needsCut hk)),
    wrap_of_inRange h]

/-- What is cut is left as it is by cutting again. -/
theorem cutCell_cutCell (hk : needsCut k) (v : BitVec 64) :
    cutCell k (cutCell k v) = cutCell k v := by
  refine cutCell_of_inRange hk ?_
  rw [toInt_cutCell hk, wrapInteger_eq_wrap (Kind.isSized_of_isKept (isKept_of_needsCut hk))]
  exact inRange_wrap k _

/-! ### Texts that cut -/

/-- A cut is an operation, so where it becomes an operand itself it gets brackets. -/
theorem tight_cutToWidth (hk : needsCut k) (ht : Tight f.operand.toList a) :
    Tight (cutToWidth f k).operand.toList (cutExp k a) := by
  rw [cutToWidth_eq_operation hk, Fragment.operand_operation, toList_parenthesized]
  exact (whole_cutToWidth hk ht).paren

/-- The text of cutting comes to the cut cell. -/
theorem numberOf_cutToWidth (hk : needsCut k) (ht : Tight f.operand.toList a)
    (heval : a.eval globals = .ok (.integer v)) :
    numberOf globals (cutToWidth f k).text = some (.integer (cutCell k v)) :=
  numberOf_of_eval (whole_cutToWidth hk ht).read (eval_cutExp_ok heval)

/-! ### Cuts that are left out -/

/-- The width that is recorded of a kind is the one that its range is made of. -/
theorem bitWidth?_of_isSized (hk : k.isSized) : k.bitWidth? = some k.width := by
  revert hk
  cases k <;> first
    | exact fun _ => rfl
    | exact fun h => absurd h (by decide)

/-- The least number is in range. -/
theorem inRange_least (k : Kind) : k.InRange k.least :=
  ⟨Int.le_refl _, Int.lt_of_le_of_lt (least_nonpos k) (limit_pos k)⟩

/-- So is the greatest one. -/
theorem inRange_limit_sub_one (k : Kind) : k.InRange (k.limit - 1) := by
  have hleast := least_nonpos k
  have hlimit := limit_pos k
  exact ⟨by omega, by omega⟩

/-- Where all integers of a kind are in the range of another, the ends of its range are. -/
theorem rangeContains_of_inRange (hk : k.isSized) (hc : c.isSized)
    (h : ∀ n, c.InRange n → k.InRange n) : rangeContains k c := by
  -- The least and the greatest number of the one range are in the other.
  have hleast : k.least ≤ c.least := (h _ (inRange_least c)).1
  have hlimit : c.limit ≤ k.limit := by
    have hlt := (h _ (inRange_limit_sub_one c)).2
    omega
  have hpow {i j : Nat} (hle : (2 : Int) ^ i ≤ 2 ^ j) : i ≤ j :=
    (Nat.pow_le_pow_iff_right Nat.one_lt_two).mp (by exact_mod_cast hle)
  have hposk := width_pos k
  have hposc := width_pos c
  -- The table compares widths and signs, so the four cases of the signs are compared by powers of
  -- two.
  simp only [rangeContains, bitWidth?_of_isSized hk, bitWidth?_of_isSized hc]
  unfold Kind.least at hleast
  unfold Kind.limit at hlimit
  cases hks : k.isUnsigned <;> cases hcs : c.isUnsigned <;>
    simp only [hks, hcs, if_true, Bool.false_eq_true, if_false] at hleast hlimit ⊢
  · have hle := hpow hlimit
    exact decide_eq_true (by omega)
  · -- The sign takes a bit away.
    have hle := hpow hlimit
    exact decide_eq_true (by omega)
  · -- Integers below zero have no place in a kind without a sign.
    have hpos : (0 : Int) < 2 ^ (c.width - 1) := by exact_mod_cast Nat.two_pow_pos _
    omega
  · exact decide_eq_true (hpow hlimit)

/-- **The test of ranges is exact**: it holds just if wrapping leaves every integer of the inner kind
alone. -/
theorem rangeContains_iff (hk : k.isSized) (hc : c.isSized) :
    rangeContains k c ↔ ∀ n, c.InRange n → wrapInteger n k = n := by
  constructor
  · intro h n hn
    rw [wrapInteger_eq_wrap hk, wrap_of_inRange (inRange_of_rangeContains h hn)]
  · intro h
    refine rangeContains_of_inRange hk hc fun n hn => ?_
    rw [← h n hn, wrapInteger_eq_wrap hk]
    exact inRange_wrap k n

/-! ### Agreement -/

/-- **The text of a cut computes what constants are wrapped to.** Take a fragment whose operand comes
to the cell `v`, of whatever value. The text that cuts it comes to the cell that holds the integer to
which `v` wraps in the kind; cutting that once more changes nothing; and if `v` holds an integer of a
kind that the kind contains, the cut comes to `v` itself, as the fragment does without a cut. A kind
contains another just if wrapping leaves all its integers alone. -/
theorem cutToWidth_eq_wrapInteger :
    (∀ globals f k a v, needsCut k → Tight f.operand.toList a →
      a.eval globals = .ok (.integer v) → ∃ cut : BitVec 64,
        cut.toInt = wrapInteger v.toInt k ∧
        numberOf globals (cutToWidth f k).text = some (.integer cut) ∧
        numberOf globals (cutToWidth (cutToWidth f k) k).text = some (.integer cut) ∧
        ∀ inner, rangeContains k inner → inner.InRange v.toInt → cut = v) ∧
    ∀ outer inner : Kind, outer.isSized → inner.isSized →
      (rangeContains outer inner ↔ ∀ n, inner.InRange n → wrapInteger n outer = n) := by
  -- Value, idempotence and containment, and the last one from both sides.
  refine ⟨fun globals f k a v hk ht heval => ⟨cutCell k v, toInt_cutCell hk v,
    numberOf_cutToWidth hk ht heval, ?_, ?_⟩, fun outer inner => rangeContains_iff⟩
  · rw [numberOf_cutToWidth hk (tight_cutToWidth hk ht) (eval_cutExp_ok heval),
      cutCell_cutCell hk]
  · intro inner hcontains hv
    exact cutCell_of_inRange hk (inRange_of_rangeContains hcontains hv)

/-- With the greatest integer of a cell the sum in the text wraps around the cell, and the cut still
comes to minus one. -/
theorem cutToWidth_eq_wrapInteger_greatest :
    (cutToWidth (.atom "x") .int8).text = "((x + 128) & 255) - 128" ∧
      numberOf (holdingX 0x7FFFFFFFFFFFFFFF) (cutToWidth (.atom "x") .int8).text =
        some (.integer (-1)) := by
  have hx : Tight "x".toList (.name "x") := ⟨[], _, true, rfl, fun _ => rfl⟩
  obtain ⟨cut, hcut, htext, -⟩ := cutToWidth_eq_wrapInteger.1 (holdingX 0x7FFFFFFFFFFFFFFF)
    (.atom "x") .int8 _ 0x7FFFFFFFFFFFFFFF rfl hx rfl
  obtain rfl : cut = -1 := BitVec.eq_of_toInt_eq (hcut.trans (by decide))
  exact ⟨rfl, htext⟩

end Lua

end GoLua
