import GoLua.Proofs.Integer.Cell
import Mathlib.Data.Int.ModEq

/-!
# Representatives of integers

A sized kind of width `w` has one integer for each class modulo `2 ^ w`, and wrapping goes to that
one. All laws of wrapping come from two facts: two integers leave the same word exactly if they are
congruent (`Kind.word_eq_word_iff`), and the number of a word leaves that word again
(`Kind.word_number`).

* `Kind.wrap_eq_wrap_iff`: congruent integers, and no others, wrap to the same one.
* `Kind.eq_wrap`: the integer in range of a class is the one that the class wraps to.
* `Kind.wrap_wrap_of_le`: wrapping to a kind that is as wide or wider loses nothing.
* `wrapInteger_representative`: constants are wrapped like that, and the sums on the way stay
  within the widest integers.
-/

namespace GoLua

open Lua

variable {k c : Kind} {a b m n : Int}

namespace Kind

/-! ### Words and classes -/

/-- The width of a kind that has one is its number of bits. -/
theorem width_of_bitWidth? {w : Nat} (h : k.bitWidth? = some w) : k.width = w := by
  rw [width, h, Option.getD_some]

/-- Two integers are one word exactly when they differ by a multiple of `2 ^ width`. -/
theorem word_eq_word_iff : k.word a = k.word b ↔ a ≡ b [ZMOD 2 ^ k.width] := by
  have hpos : (0 : Int) < (2 ^ k.width : Nat) := by exact_mod_cast Nat.two_pow_pos k.width
  rw [← BitVec.toNat_inj, word, word, BitVec.toNat_ofInt, BitVec.toNat_ofInt, Int.ModEq]
  have ha := Int.emod_nonneg a hpos.ne'
  have hb := Int.emod_nonneg b hpos.ne'
  push_cast
  omega

/-- The number of a word leaves the word. -/
theorem word_number (x : BitVec k.width) : k.word (k.number x) = x := by
  unfold word number
  split
  · rw [BitVec.ofInt_natCast, BitVec.ofNat_toNat, BitVec.setWidth_eq]
  · exact BitVec.ofInt_toInt

/-! ### Wrapping -/

/-- Wrapping stays in the class. -/
theorem wrap_modEq (k : Kind) (n : Int) : k.wrap n ≡ n [ZMOD 2 ^ k.width] :=
  word_eq_word_iff.mp (word_number _)

/-- What an integer wraps to depends on its class alone. -/
theorem wrap_eq_wrap_iff : k.wrap a = k.wrap b ↔ a ≡ b [ZMOD 2 ^ k.width] := by
  constructor
  · intro h
    have hb := wrap_modEq k b
    rw [← h] at hb
    exact (wrap_modEq k a).symm.trans hb
  · intro h
    exact congrArg k.number (word_eq_word_iff.mpr h)

/-- There is one integer in range in each class. -/
theorem eq_wrap (hm : k.InRange m) (h : m ≡ n [ZMOD 2 ^ k.width]) : m = k.wrap n := by
  rw [← wrap_of_inRange hm]
  exact wrap_eq_wrap_iff.mpr h

theorem wrap_wrap (k : Kind) (n : Int) : k.wrap (k.wrap n) = k.wrap n :=
  wrap_of_inRange (inRange_wrap k n)

theorem wrap_add (k : Kind) (a b : Int) : k.wrap (a + b) = k.wrap (k.wrap a + k.wrap b) :=
  wrap_eq_wrap_iff.mpr ((wrap_modEq k a).add (wrap_modEq k b)).symm

theorem wrap_mul (k : Kind) (a b : Int) : k.wrap (a * b) = k.wrap (k.wrap a * k.wrap b) :=
  wrap_eq_wrap_iff.mpr ((wrap_modEq k a).mul (wrap_modEq k b)).symm

/-- Wrapping to a kind that is as wide or wider loses nothing. -/
theorem wrap_wrap_of_le (h : k.width ≤ c.width) (n : Int) : k.wrap (c.wrap n) = k.wrap n :=
  wrap_eq_wrap_iff.mpr ((wrap_modEq c n).of_dvd (pow_dvd_pow 2 h))

end Kind

/-! ### Constants -/

namespace Lua

/-- Half the words of a kind are no more than half the words of a cell. -/
theorem wordCount_half_le (hk : k.isSized) {w : Nat} (hw : k.bitWidth? = some w) :
    (wordCount (w - 1) : Int) ≤ 0x8000000000000000 := by
  revert hk
  cases k <;> cases hw <;> decide

/-- **The representative of a constant.** A sized kind of width `w` takes an integer to the one
integer in its range that is congruent to it modulo `2 ^ w`. So integers in range are left alone,
wrapping twice is wrapping once, sums and products may be wrapped on the way, and so may everything
to a kind that is at least as wide. The half range that is added first takes no integer of 128 bits
out of these, up to `2 ^ 63` below the greatest. -/
theorem wrapInteger_representative (hk : k.isSized) {w : Nat} (hw : k.bitWidth? = some w) :
    (∀ n, k.InRange (wrapInteger n k) ∧ wrapInteger n k ≡ n [ZMOD 2 ^ w] ∧
      ∀ m, k.InRange m → m ≡ n [ZMOD 2 ^ w] → m = wrapInteger n k) ∧
    (∀ n, k.InRange n → wrapInteger n k = n) ∧
    (∀ n, wrapInteger (wrapInteger n k) k = wrapInteger n k) ∧
    (∀ a b, wrapInteger (a + b) k = wrapInteger (wrapInteger a k + wrapInteger b k) k) ∧
    (∀ a b, wrapInteger (a * b) k = wrapInteger (wrapInteger a k * wrapInteger b k) k) ∧
    (∀ (c : Kind) (v : Nat), c.isSized → c.bitWidth? = some v → w ≤ v →
      ∀ n, wrapInteger (wrapInteger n c) k = wrapInteger n k) ∧
    ∀ n, Int128.least ≤ n → n ≤ Int128.greatest - 2 ^ 63 →
      Int128.least ≤ n + wordCount (w - 1) ∧ n + wordCount (w - 1) ≤ Int128.greatest := by
  obtain rfl := Kind.width_of_bitWidth? hw
  simp only [wrapInteger_eq_wrap hk]
  refine ⟨fun n => ⟨inRange_wrap k n, k.wrap_modEq n, fun m => Kind.eq_wrap⟩,
    fun n => wrap_of_inRange, k.wrap_wrap, k.wrap_add, k.wrap_mul, ?_, ?_⟩
  -- A kind at least as wide keeps the bits the narrower one asks for.
  · intro c v hc hv hle n
    obtain rfl := Kind.width_of_bitWidth? hv
    rw [wrapInteger_eq_wrap hc, Kind.wrap_wrap_of_le hle]
  -- Half the words of a kind are at most `2 ^ 63`, so neither bound of the range leaves 128 bits.
  · intro n hleast hgreatest
    have hhalf := wordCount_half_le hk hw
    have hnonneg : (0 : Int) ≤ wordCount (k.width - 1) := Int.natCast_nonneg _
    exact ⟨by omega, by omega⟩

/-- Bytes, of the number 300, which wraps to 44, by way of 16 bits as well. -/
theorem wrapInteger_representative_byte :
    wrapInteger 300 .uint8 = 44 ∧ 44 ≡ 300 [ZMOD 2 ^ 8] ∧
      wrapInteger (wrapInteger 300 .int16) .uint8 = wrapInteger 300 .uint8 := by
  obtain ⟨hwrap, -, -, -, -, hwider, -⟩ :=
    wrapInteger_representative (k := .uint8) rfl (w := 8) rfl
  exact ⟨((hwrap 300).2.2 44 (by decide) (by decide)).symm, by decide,
    hwider .int16 16 rfl rfl (by decide) 300⟩

end Lua

end GoLua
