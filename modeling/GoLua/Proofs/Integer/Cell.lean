import GoLua.Lua.Integer
import Mathlib.Data.BitVec

/-!
# Integers of Go in cells

An integer of a kind is held in a cell of 64 bits: without a sign it is continued with zeros, with a
sign it is continued with the sign. This module says which operations on cells are the operations of
Go on the integers in them.

* Sums, differences, products and shifts to the left are right in the cell, up to the range of the
  kind: the cell of the exact result is the result of the cell.
* Operations on bits, remainders and shifts to the right never leave the range.
* Quotients leave it once, where the least integer is divided by minus one.
* The order of cells is the order of the integers, except for unsigned integers that fill the cell.

What an operation leaves beyond the range is cut, and cutting gives the integer of the kind that Go
has (`cell_wrap`).
-/

namespace GoLua

namespace Kind

/-- The width of the words of a kind. -/
def width (k : Kind) : Nat :=
  k.bitWidth?.getD 64

/-- The word that an integer leaves in a kind. -/
def word (k : Kind) (n : Int) : BitVec k.width :=
  BitVec.ofInt k.width n

/-- The integer that a word of a kind stands for. -/
def number (k : Kind) (x : BitVec k.width) : Int :=
  if k.isUnsigned then x.toNat else x.toInt

/-- An integer cut to the range of a kind, as Go does it. -/
def wrap (k : Kind) (n : Int) : Int :=
  k.number (k.word n)

/-- The least integer of a kind. -/
def least (k : Kind) : Int :=
  if k.isUnsigned then 0 else -2 ^ (k.width - 1)

/-- The first integer above those of a kind. -/
def limit (k : Kind) : Int :=
  if k.isUnsigned then 2 ^ k.width else 2 ^ (k.width - 1)

/-- Whether an integer is in the range of a kind. -/
def InRange (k : Kind) (n : Int) : Prop :=
  k.least ≤ n ∧ n < k.limit

instance (k : Kind) (n : Int) : Decidable (k.InRange n) :=
  inferInstanceAs (Decidable (_ ∧ _))

/-- Whether the values of a kind are kept in range: they are cut where they may leave it, or they
fill the cell. -/
def isKept (k : Kind) : Bool :=
  Lua.needsCut k || k.bitWidth? == some 64

/-- The kinds of integers that have a width of their own. -/
def isSized (k : Kind) : Bool :=
  k.isInteger && !k.isUntyped

/-- What is kept in a cell has a width. -/
theorem isSized_of_isKept {k : Kind} (h : k.isKept) : k.isSized := by
  revert h
  cases k <;> decide

end Kind

namespace Lua

/-- The cell that holds an integer. -/
def cell (n : Int) : BitVec 64 :=
  BitVec.ofInt 64 n

open Kind

variable {k : Kind} {a b n : Int}

/-! ### Ranges -/

theorem width_pos (k : Kind) : 0 < k.width := by cases k <;> decide

theorem least_nonpos (k : Kind) : k.least ≤ 0 := by cases k <;> decide

theorem limit_pos (k : Kind) : 0 < k.limit := by cases k <;> decide

/-- A word counts a number in the range of its kind. -/
theorem inRange_number (x : BitVec k.width) : k.InRange (k.number x) := by
  unfold InRange least limit number
  cases k.isUnsigned with
  | true => exact ⟨Int.natCast_nonneg _, by simpa using (by exact_mod_cast x.isLt : _)⟩
  | false => exact ⟨BitVec.le_toInt x, BitVec.toInt_lt⟩

/-- A number that is wrapped is in range. -/
theorem inRange_wrap (k : Kind) (n : Int) : k.InRange (k.wrap n) :=
  inRange_number _

/-- An integer in range is cut to itself. -/
theorem wrap_of_inRange (h : k.InRange n) : k.wrap n = n := by
  unfold InRange least limit at h
  unfold wrap number word
  cases hsign : k.isUnsigned with
  | true =>
    -- Without a sign the word counts the number itself.
    simp only [hsign, if_true] at h ⊢
    obtain ⟨m, rfl⟩ := Int.eq_ofNat_of_zero_le h.1
    have hm : m < 2 ^ k.width := by exact_mod_cast h.2
    rw [BitVec.ofInt_natCast, BitVec.toNat_ofNat, Nat.mod_eq_of_lt hm]
  | false =>
    -- With a sign the number is read off the word in complement.
    simp only [hsign] at h ⊢
    exact BitVec.toInt_ofInt_eq_self (width_pos k) h.1 h.2

/-- Every integer in range fits a cell, with a sign or without one. -/
theorem le_of_inRange (h : k.InRange n) : -0x8000000000000000 ≤ n ∧ n < 0x10000000000000000 := by
  obtain ⟨hle, hlt⟩ := h
  cases k <;> simp [least, limit, Kind.width, isUnsigned, bitWidth?] at hle hlt <;> omega

/-- Integers of the kinds other than `uint64` fit a signed cell. -/
theorem lt_of_inRange (h : k.InRange n) (hk : k ≠ .uint64) : n < 0x8000000000000000 := by
  obtain ⟨hle, hlt⟩ := h
  cases k <;> simp [least, limit, Kind.width, isUnsigned, bitWidth?] at hle hlt <;> first
    | exact absurd rfl hk
    | omega

/-- Without a sign there are no numbers below zero. -/
theorem nonneg_of_inRange (h : k.InRange n) (hk : k.isUnsigned) : 0 ≤ n := by
  have hle := h.1
  rwa [least, if_pos hk] at hle

/-- Cutting a constant while the program is compiled is cutting it as Go does. -/
theorem wrapInteger_eq_wrap (hk : k.isSized) (n : Int) : wrapInteger n k = k.wrap n := by
  cases k
  all_goals first
    | exact absurd hk (by decide)
    | (simp [wrapInteger, wrap, number, word, Kind.width, isUnsigned, bitWidth?, isUntyped,
        isInteger, wordCount, Int.bmod]
       omega)

/-- The untyped kinds have no range to cut to. -/
theorem wrapInteger_of_isUntyped (hk : k.isUntyped) (n : Int) : wrapInteger n k = n := by
  rw [wrapInteger, hk, Bool.true_or, if_pos rfl]

/-! ### Cells -/

/-- Addition goes on modulo the cell, and so do the other operations. -/
theorem cell_add : cell (a + b) = cell a + cell b := BitVec.ofInt_add a b

theorem cell_mul : cell (a * b) = cell a * cell b := BitVec.ofInt_mul a b

theorem cell_neg : cell (-a) = -cell a := BitVec.ofInt_neg

theorem cell_sub : cell (a - b) = cell a - cell b := by
  rw [Int.sub_eq_add_neg, cell_add, cell_neg, BitVec.sub_eq_add_neg]

/-- All bits are turned over below zero by one less than the opposite. -/
theorem cell_not : cell (-a - 1) = ~~~cell a := by
  rw [cell_sub, cell_neg, BitVec.neg_eq_not_add]
  exact BitVec.add_sub_cancel _ _

/-- A cell holds an integer exactly, with a sign, if it fits. -/
theorem toInt_cell (h : -0x8000000000000000 ≤ n) (h' : n < 0x8000000000000000) :
    (cell n).toInt = n :=
  BitVec.toInt_ofInt_eq_self (by decide) h h'

theorem cell_toNat (x : BitVec 64) : cell x.toNat = x := by
  rw [cell, BitVec.ofInt_natCast, BitVec.ofNat_toNat, BitVec.setWidth_eq]

/-- What a cell holds with a sign, of an integer that fits it without one. -/
theorem toInt_cell_of_nonneg (h : 0 ≤ n) (h' : n < 0x10000000000000000) :
    (cell n).toInt = if n < 0x8000000000000000 then n else n - 0x10000000000000000 := by
  rw [cell, BitVec.toInt_ofInt, Int.bmod_def]
  split <;> split <;> omega

/-- A cell holds an integer exactly, without a sign, if it fits. -/
theorem toNat_cell (h : 0 ≤ n) (h' : n < 0x10000000000000000) : (cell n).toNat = n.toNat := by
  rw [cell, BitVec.toNat_ofInt]
  omega

/-- The cell of an integer of a kind continues its word, with zeros or with the sign. -/
theorem cell_number (x : BitVec k.width) :
    cell (k.number x) = if k.isUnsigned then x.setWidth 64 else x.signExtend 64 := by
  unfold number cell
  split
  · rw [BitVec.ofInt_natCast, BitVec.ofNat_toNat]
  · rfl

/-! ### Cutting -/

/-- The cut of a cell to the range of a kind, by masks. -/
def cutCell (k : Kind) (c : BitVec 64) : BitVec 64 :=
  match k with
  | .int8 => ((c + 128) &&& 255) - 128
  | .int16 => ((c + 32768) &&& 65535) - 32768
  | .uint8 => c &&& 255
  | .uint16 => c &&& 65535
  | .uint32 | .uint | .uintptr => c &&& 0xFFFFFFFF
  | _ => c

/-- A mask of ones at the end takes the remainder. -/
theorem cell_and_mask (n : Int) {w : Nat} (hw : w ≤ 64) :
    cell n &&& BitVec.ofNat 64 (2 ^ w - 1) = cell (n % (2 ^ w : Nat)) := by
  have hpos : (0 : Int) < (2 ^ w : Nat) := by exact_mod_cast Nat.two_pow_pos w
  have hdvd : ((2 ^ w : Nat) : Int) ∣ (2 ^ 64 : Nat) := by
    exact_mod_cast Nat.pow_dvd_pow 2 hw
  have hmask : (2 ^ w - 1) % 2 ^ 64 = 2 ^ w - 1 :=
    Nat.mod_eq_of_lt (Nat.lt_of_lt_of_le (Nat.sub_lt (Nat.two_pow_pos w) Nat.one_pos)
      (Nat.pow_le_pow_right Nat.two_pos hw))
  apply BitVec.eq_of_toNat_eq
  rw [BitVec.toNat_and, BitVec.toNat_ofNat, hmask, Nat.and_two_pow_sub_one_eq_mod, cell, cell,
    BitVec.toNat_ofInt, BitVec.toNat_ofInt]
  -- Both sides are the remainder by the smaller power.
  have hleft := Int.emod_emod_of_dvd n hdvd
  have hlt : n % (2 ^ w : Nat) < (2 ^ 64 : Nat) :=
    Int.lt_of_lt_of_le (Int.emod_lt_of_pos n hpos)
      (by exact_mod_cast Nat.pow_le_pow_right Nat.two_pos hw)
  rw [Int.emod_eq_of_lt (Int.emod_nonneg n (Int.ne_of_gt hpos)) hlt]
  have hnonneg : 0 ≤ n % ((2 ^ 64 : Nat) : Int) := Int.emod_nonneg n (by decide)
  have hnonneg' := Int.emod_nonneg n (Int.ne_of_gt hpos)
  apply Int.natCast_inj.mp
  rw [Int.natCast_emod, Int.toNat_of_nonneg hnonneg, Int.toNat_of_nonneg hnonneg']
  exact hleft

/-- A cut that centres the range around zero first. -/
theorem cell_centred (n half : Int) {w : Nat} (hw : w ≤ 64) :
    ((cell n + cell half) &&& BitVec.ofNat 64 (2 ^ w - 1)) - cell half =
      cell ((n + half) % (2 ^ w : Nat) - half) := by
  rw [← cell_add, cell_and_mask _ hw, cell_sub]

/-- **Cutting is what Go does.** The cell of an integer, cut to a kind, is the cell of the integer
that Go leaves of it in that kind. -/
theorem cutCell_cell (hk : k.isKept) (n : Int) : cutCell k (cell n) = cell (k.wrap n) := by
  rw [← wrapInteger_eq_wrap (isSized_of_isKept hk)]
  cases k
  case int8 => exact cell_centred n 128 (w := 8) (by decide)
  case int16 => exact cell_centred n 32768 (w := 16) (by decide)
  case uint8 => exact cell_and_mask n (w := 8) (by decide)
  case uint16 => exact cell_and_mask n (w := 16) (by decide)
  case uint32 | uint | uintptr => exact cell_and_mask n (w := 32) (by decide)
  case int | int64 =>
    -- The cell is as wide as the kind, so what is cut off is cut off by the cell.
    simp only [cutCell, wrapInteger, isUntyped, isInteger, bitWidth?, isUnsigned, cell]
    apply BitVec.eq_of_toInt_eq
    simp [wordCount, Int.bmod]
  case uint64 =>
    simp only [cutCell, wrapInteger, isUntyped, isInteger, bitWidth?, isUnsigned, cell]
    apply BitVec.eq_of_toNat_eq
    simp [wordCount]
  all_goals exact absurd hk (by decide)

/-! ### Operations on bits -/

section Bits

variable (f : ∀ {w : Nat}, BitVec w → BitVec w → BitVec w)

/-- What commutes with continuing a word, does the same to words and to cells. -/
theorem cell_bitwise (hzero : ∀ x y : BitVec k.width, (f x y).setWidth 64 =
      f (x.setWidth 64) (y.setWidth 64))
    (hsign : ∀ x y : BitVec k.width, (f x y).signExtend 64 = f (x.signExtend 64) (y.signExtend 64))
    (ha : k.InRange a) (hb : k.InRange b) :
    cell (k.number (f (k.word a) (k.word b))) = f (cell a) (cell b) := by
  -- A number in range is kept in the cell as its word, widened with zeros or with the sign.
  have hcell {n : Int} (hn : k.InRange n) : cell n =
      if k.isUnsigned then (k.word n).setWidth 64 else (k.word n).signExtend 64 := by
    rw [← cell_number, ← wrap, wrap_of_inRange hn]
  rw [cell_number, hcell ha, hcell hb]
  split
  · exact hzero _ _
  · exact hsign _ _

end Bits

/-- Bits are taken together in the cells as they are in the words. -/
theorem cell_and (ha : k.InRange a) (hb : k.InRange b) :
    cell (k.number (k.word a &&& k.word b)) = cell a &&& cell b :=
  cell_bitwise (f := fun x y => x &&& y) (fun _ _ => BitVec.setWidth_and)
    (fun _ _ => BitVec.signExtend_and) ha hb

theorem cell_or (ha : k.InRange a) (hb : k.InRange b) :
    cell (k.number (k.word a ||| k.word b)) = cell a ||| cell b :=
  cell_bitwise (f := fun x y => x ||| y) (fun _ _ => BitVec.setWidth_or)
    (fun _ _ => BitVec.signExtend_or) ha hb

theorem cell_xor (ha : k.InRange a) (hb : k.InRange b) :
    cell (k.number (k.word a ^^^ k.word b)) = cell a ^^^ cell b :=
  cell_bitwise (f := fun x y => x ^^^ y) (fun _ _ => BitVec.setWidth_xor)
    (fun _ _ => BitVec.signExtend_xor) ha hb

/-- The complement is taken of the cell, and its upper bits are cleared with those of the left
operand. -/
theorem cell_andNot (ha : k.InRange a) (hb : k.InRange b) :
    cell (k.number (k.word a &&& ~~~k.word b)) = cell a &&& ~~~cell b := by
  refine cell_bitwise (f := fun x y => x &&& ~~~y) (fun x y => ?_) (fun x y => ?_) ha hb
  · -- The ones that continue the complement meet zeros.
    ext i hi
    by_cases h : i < k.width
    · simp [h]
    · simp [h, BitVec.getLsbD_of_ge x i (Nat.le_of_not_lt h)]
  · rw [BitVec.signExtend_and, BitVec.signExtend_not (width_pos k)]

/-! ### Division -/

/-- A divisor that is zero in its cell is zero. -/
theorem cell_eq_zero_iff (hb : k.InRange b) : cell b = 0 ↔ b = 0 := by
  obtain ⟨hle, hlt⟩ := le_of_inRange hb
  constructor
  · intro h
    have htoInt := congrArg BitVec.toInt h
    simp [cell, Int.bmod] at htoInt
    omega
  · rintro rfl
    rfl

/-- Division with a sign cuts towards zero. -/
theorem sdiv_cell (ha : k.InRange a) (hb : k.InRange b) (hk : k ≠ .uint64) :
    (cell a).sdiv (cell b) = cell (a.tdiv b) := by
  apply BitVec.eq_of_toInt_eq
  rw [BitVec.toInt_sdiv, toInt_cell (le_of_inRange ha).1 (lt_of_inRange ha hk),
    toInt_cell (le_of_inRange hb).1 (lt_of_inRange hb hk)]
  exact (BitVec.toInt_ofInt _).symm

/-- A signed remainder has the sign of the dividend, in a cell as well. -/
theorem srem_cell (ha : k.InRange a) (hb : k.InRange b) (hk : k ≠ .uint64) :
    (cell a).srem (cell b) = cell (a.tmod b) := by
  rw [← BitVec.ofInt_toInt (x := (cell a).srem (cell b)), BitVec.toInt_srem,
    toInt_cell (le_of_inRange ha).1 (lt_of_inRange ha hk),
    toInt_cell (le_of_inRange hb).1 (lt_of_inRange hb hk)]
  rfl

/-- Division without a sign, where there is no other integer than natural numbers. -/
theorem udiv_cell (ha : k.InRange a) (hb : k.InRange b) (hk : k.isUnsigned) :
    (cell a).udiv (cell b) = cell (a.tdiv b) := by
  -- Without a sign both are natural numbers below the weight of the highest bit of the cell, or at
  -- most fill it.
  obtain ⟨m, rfl⟩ := Int.eq_ofNat_of_zero_le (nonneg_of_inRange ha hk)
  obtain ⟨n, rfl⟩ := Int.eq_ofNat_of_zero_le (nonneg_of_inRange hb hk)
  have hm := (le_of_inRange ha).2
  have hn := (le_of_inRange hb).2
  apply BitVec.eq_of_toNat_eq
  have hdiv : m / n ≤ m := Nat.div_le_self m n
  rw [BitVec.udiv_eq, BitVec.toNat_udiv, toNat_cell (Int.natCast_nonneg m) hm,
    toNat_cell (Int.natCast_nonneg n) hn, ← Int.ofNat_tdiv,
    toNat_cell (Int.natCast_nonneg _) (by omega)]
  rfl

/-- The remainder without a sign, by the same argument as the quotient. -/
theorem umod_cell (ha : k.InRange a) (hb : k.InRange b) (hk : k.isUnsigned) :
    (cell a).umod (cell b) = cell (a.tmod b) := by
  obtain ⟨m, rfl⟩ := Int.eq_ofNat_of_zero_le (nonneg_of_inRange ha hk)
  obtain ⟨n, rfl⟩ := Int.eq_ofNat_of_zero_le (nonneg_of_inRange hb hk)
  have hm := (le_of_inRange ha).2
  have hn := (le_of_inRange hb).2
  apply BitVec.eq_of_toNat_eq
  have hmod : m % n ≤ m := Nat.mod_le m n
  rw [BitVec.umod_eq, BitVec.toNat_umod, toNat_cell (Int.natCast_nonneg m) hm,
    toNat_cell (Int.natCast_nonneg n) hn, ← Int.ofNat_tmod,
    toNat_cell (Int.natCast_nonneg _) (by omega)]
  rfl

/-- A remainder lies between zero and the dividend. -/
theorem inRange_tmod (ha : k.InRange a) (b : Int) : k.InRange (a.tmod b) := by
  obtain ⟨hle, hlt⟩ := ha
  have habs : (a.tmod b).natAbs ≤ a.natAbs := by
    rw [Int.natAbs_tmod]
    exact Nat.mod_le _ _
  have hleast := least_nonpos k
  have hlimit := limit_pos k
  -- The sign is that of the dividend, so each half of the range is left alone.
  rcases Int.le_total 0 a with hnonneg | hnonpos
  · have htmod := Int.tmod_nonneg b hnonneg
    exact ⟨by omega, by omega⟩
  · have htmod : 0 ≤ (-a).tmod b := Int.tmod_nonneg b (by omega)
    rw [Int.neg_tmod] at htmod
    exact ⟨by omega, by omega⟩

/-! ### Shifts -/

/-- A shift to the left multiplies, modulo the cell. -/
theorem cell_shiftLeft (a : Int) (count : Nat) : cell (a * 2 ^ count) = cell a <<< count := by
  have hpow : cell (2 ^ count) = BitVec.twoPow 64 count := by
    apply BitVec.eq_of_toNat_eq
    rw [BitVec.toNat_twoPow, cell, BitVec.toNat_ofInt]
    exact_mod_cast Int.toNat_natCast _
  rw [cell_mul, hpow, BitVec.shiftLeft_eq_mul_twoPow]

/-- A shift to the right without a sign fills with zeros, and so it does in the cell. -/
theorem cell_shiftRight (ha : k.InRange a) (hk : k.isUnsigned) (count : Nat) :
    cell (a >>> count) = cell a >>> count := by
  obtain ⟨m, rfl⟩ := Int.eq_ofNat_of_zero_le (nonneg_of_inRange ha hk)
  have hm := (le_of_inRange ha).2
  apply BitVec.eq_of_toNat_eq
  have hshift : m >>> count ≤ m := by
    rw [Nat.shiftRight_eq_div_pow]
    exact Nat.div_le_self _ _
  rw [← Int.natCast_shiftRight, BitVec.toNat_ushiftRight, toNat_cell (Int.natCast_nonneg _) (by omega),
    toNat_cell (Int.natCast_nonneg _) hm]
  rfl

/-- With a sign it fills with the highest bit of the cell, which is the sign. -/
theorem cell_sshiftRight (ha : k.InRange a) (hk : k.isUnsigned = false) (count : Nat) :
    cell (a >>> count) = (cell a).sshiftRight count := by
  have hne : k ≠ .uint64 := by
    rintro rfl
    cases hk
  rw [BitVec.sshiftRight, toInt_cell (le_of_inRange ha).1 (lt_of_inRange ha hne)]
  rfl

/-- A shift to the right brings a number closer to zero, or to minus one. -/
theorem inRange_shiftRight (ha : k.InRange a) (count : Nat) : k.InRange (a >>> count) := by
  obtain ⟨hle, hlt⟩ := ha
  -- A shift to the right moves towards zero or minus one.
  rcases Int.le_total 0 a with hnonneg | hnonpos
  · have hbelow := Int.shiftRight_le_of_nonneg (s := count) hnonneg
    have habove := Int.le_shiftRight_of_nonneg (s := count) hnonneg
    have hleast := least_nonpos k
    exact ⟨by omega, by omega⟩
  · have hbelow := Int.shiftRight_le_of_nonpos (s := count) hnonpos
    have habove := Int.le_shiftRight_of_nonpos (s := count) hnonpos
    have hlimit := limit_pos k
    exact ⟨by omega, by omega⟩

/-- The count of a shift is read off its cell. -/
theorem count_cell {count : Int} (h : 0 ≤ count) (h' : count < 0x8000000000000000) :
    (cell count).msb = false ∧ (cell count).toNat = count.toNat := by
  refine ⟨?_, toNat_cell h (by omega)⟩
  rw [BitVec.msb_eq_toInt, toInt_cell (by omega) h']
  exact decide_eq_false (by omega)

/-! ### Order -/

/-- Cells are ordered with their sign. -/
theorem slt_cell (ha : k.InRange a) (hb : k.InRange b) (hk : k ≠ .uint64) :
    (cell a).slt (cell b) = decide (a < b) := by
  rw [BitVec.slt_eq_decide, toInt_cell (le_of_inRange ha).1 (lt_of_inRange ha hk),
    toInt_cell (le_of_inRange hb).1 (lt_of_inRange hb hk)]

/-- Turning over the highest of 64 bits adds or takes away what it counts. -/
theorem xor_highest {n : Nat} (h : n < 0x10000000000000000) :
    n ^^^ 0x8000000000000000 =
      if n < 0x8000000000000000 then n + 0x8000000000000000 else n - 0x8000000000000000 := by
  -- The lower bits stay, and the highest one is found by division.
  have hdiv := Nat.xor_div_two_pow (a := n) (b := 0x8000000000000000) (n := 63)
  have hmod := Nat.xor_mod_two_pow (a := n) (b := 0x8000000000000000) (n := 63)
  simp only [show (2 : Nat) ^ 63 = 0x8000000000000000 from rfl] at hdiv hmod
  rw [Nat.mod_self, Nat.xor_zero] at hmod
  rw [Nat.div_self (by decide)] at hdiv
  split
  · next hlt =>
    rw [Nat.div_eq_of_lt hlt, Nat.zero_xor] at hdiv
    omega
  · next hge =>
    have hone : n / 0x8000000000000000 = 1 := by omega
    rw [hone, Nat.xor_self] at hdiv
    omega

/-- Turning the sign bit over moves the unsigned range to the signed one. -/
theorem toInt_cell_xor (ha : InRange .uint64 a) :
    (cell a ^^^ BitVec.intMin 64).toInt = a - 0x8000000000000000 := by
  obtain ⟨m, rfl⟩ := Int.eq_ofNat_of_zero_le (nonneg_of_inRange ha rfl)
  have hm : m < 0x10000000000000000 := by exact_mod_cast (le_of_inRange ha).2
  have hnat : (cell m ^^^ BitVec.intMin 64).toNat = m ^^^ 0x8000000000000000 := by
    rw [BitVec.toNat_xor, toNat_cell (Int.natCast_nonneg m) (by omega)]
    rfl
  rw [BitVec.toInt_eq_toNat_cond, hnat, xor_highest hm]
  split <;> split <;> omega

/-- Turning the highest bit over takes the order without a sign to the order with one. -/
theorem slt_cell_xor (ha : InRange .uint64 a) (hb : InRange .uint64 b) :
    (cell a ^^^ BitVec.intMin 64).slt (cell b ^^^ BitVec.intMin 64) = decide (a < b) := by
  rw [BitVec.slt_eq_decide, toInt_cell_xor ha, toInt_cell_xor hb]
  exact decide_eq_decide.mpr (by omega)

end Lua

end GoLua
