import GoLua.Proofs.Integer.Meaning

/-!
# Operators on integers and on cells

For each operator of Go: what emitted text does to the cells of integers in range is what Go does to
the integers, as far as the exact result goes. Whether the exact result has to be cut is another
matter: `agrees_cut` says what the cut does to a result that may have left the range, and results that
stay in range need none (`inRange_exact`).
-/

namespace GoLua

open Lua

variable {k c : Kind} {m n : Int}

/-! ### Operators that Lua has as well -/

/-- The operator of Lua that does to cells what an operator of Go does to integers. -/
def BinaryOp.native? : BinaryOp → Option Lua.Binary
  | .add => some .add
  | .sub => some .sub
  | .mul => some .mul
  | .and => some .bitAnd
  | .or => some .bitOr
  | .xor => some .bitXor
  | .lss => some .lt
  | .leq => some .le
  | .gtr => some .gt
  | .geq => some .ge
  | _ => none

variable {op : BinaryOp} {native : Lua.Binary}

/-- The native operators are spelled as the operators are. -/
theorem spelling_native (h : op.native? = some native) :
    native.spelling = op.luaToken.toList := by
  cases op <;> cases h <;> rfl

/-- No native operator decides whether its right operand is evaluated. -/
theorem not_connective_native (h : op.native? = some native) :
    native ≠ .and ∧ native ≠ .or := by
  cases op <;> cases h <;> decide

/-- Sum, difference, product and bits come to the cell of the result. -/
theorem agrees_native (h : op.native? = some native) (hop : op ∈ arithmeticOps) (hm : k.InRange m)
    (hn : k.InRange n) :
    Agrees Value.ofInt (op.exact k m n) (native.apply (.ofInt m) (.ofInt n)) := by
  cases op <;> cases h
  case add => exact congrArg (Except.ok ∘ Value.integer) cell_add.symm
  case sub => exact congrArg (Except.ok ∘ Value.integer) cell_sub.symm
  case mul => exact congrArg (Except.ok ∘ Value.integer) cell_mul.symm
  case and => exact congrArg (Except.ok ∘ Value.integer) (cell_and hm hn).symm
  case or => exact congrArg (Except.ok ∘ Value.integer) (cell_or hm hn).symm
  case xor => exact congrArg (Except.ok ∘ Value.integer) (cell_xor hm hn).symm
  -- The orderings are no operators from integers to integers.
  all_goals exact absurd hop (by decide)

/-- Clearing bits is masking with the complement. -/
theorem agrees_andNot (hm : k.InRange m) (hn : k.InRange n) :
    Agrees Value.ofInt (BinaryOp.andNot.exact k m n)
      (Binary.bitAnd.apply (.ofInt m) (.integer (~~~cell n))) :=
  congrArg (Except.ok ∘ Value.integer) (cell_andNot hm hn).symm

/-! ### Division -/

/-- A function of the library that divides does what Go does if it is right for other divisors than
zero. -/
theorem agrees_dividing {f : BitVec 64 → BitVec 64 → BitVec 64} {result : Int} (hn : k.InRange n)
    (hf : f (cell m) (cell n) = cell result) :
    Agrees Value.ofInt (divided n result) ((dividing f).apply [.ofInt m, .ofInt n]) := by
  rw [dividing, apply_ofTwo]
  by_cases hzero : n = 0
  · rw [divided, if_pos hzero, if_pos ((cell_eq_zero_iff hn).mpr hzero)]
    rfl
  · rw [divided, if_neg hzero, if_neg (mt (cell_eq_zero_iff hn).mp hzero), hf]
    rfl

/-! ### Shifts -/

/-- What does the right thing for every count does so for those that there are. -/
theorem agrees_shifted {result : Nat → Int} {r : Except Fault Value}
    (h : (cell n).msb = false → (cell n).toNat = n.toNat → r = .ok (.ofInt (result n.toNat))) :
    Agrees Value.ofInt (shifted n result) r := by
  unfold shifted
  split
  · next hcount =>
    obtain ⟨hmsb, htoNat⟩ := count_cell hcount.1 hcount.2
    exact h hmsb htoNat
  · trivial

/-- A count that is negative panics, and any other one shifts the cell. -/
theorem agrees_shiftLeft :
    Agrees Value.ofInt (BinaryOp.shl.exact k m n)
      (Binary.shiftLeft.apply (.ofInt m) (.ofInt n)) := by
  change Agrees Value.ofInt (shifted n fun count => m * 2 ^ count) _
  refine agrees_shifted fun hmsb htoNat => ?_
  change Except.ok (Value.integer (shiftedLeft (cell m) (cell n))) = _
  rw [shiftedLeft, hmsb, htoNat, Value.ofInt, cell_shiftLeft]
  rfl

/-- Without a sign the cell is shifted with zeros. -/
theorem agrees_shiftRight (hm : k.InRange m) (hk : k.isUnsigned) :
    Agrees Value.ofInt (BinaryOp.shr.exact k m n)
      (Binary.shiftRight.apply (.ofInt m) (.ofInt n)) := by
  refine agrees_shifted fun hmsb htoNat => ?_
  change Except.ok (Value.integer (shiftedRight (cell m) (cell n))) = _
  rw [shiftedRight, hmsb, htoNat, Value.ofInt, cell_shiftRight hm hk]
  rfl

/-- With a sign the library shifts it. -/
theorem agrees_arshift {globals : String → Value} (hlibrary : Library globals) (hm : k.InRange m)
    (hk : k.isUnsigned = false) :
    Agrees Value.ofInt (BinaryOp.shr.exact k m n)
      ((globals Support.arshift).apply [.ofInt m, .ofInt n]) := by
  refine agrees_shifted fun _ htoNat => ?_
  rw [hlibrary.arshift, apply_ofTwo, htoNat, Value.ofInt, cell_sshiftRight hm hk]
  rfl

/-! ### Order -/

/-- The four orderings follow from less and greater. -/
theorem agrees_ordering (h : op.native? = some native) (hop : op ∈ orderingOps)
    {a b : BitVec 64} (hlt : a.slt b = decide (m < n)) (hgt : b.slt a = decide (n < m)) :
    Agrees Value.truth (op.compare m n) (native.apply (.integer a) (.integer b)) := by
  have hle : a.sle b = decide (m ≤ n) := by
    rw [BitVec.sle_eq_not_slt, hgt, ← decide_not]
    exact decide_eq_decide.mpr Int.not_lt
  have hge : b.sle a = decide (n ≤ m) := by
    rw [BitVec.sle_eq_not_slt, hlt, ← decide_not]
    exact decide_eq_decide.mpr Int.not_lt
  cases op <;> cases h
  case lss => exact congrArg (Except.ok ∘ Value.truth) hlt
  case leq => exact congrArg (Except.ok ∘ Value.truth) hle
  case gtr => exact congrArg (Except.ok ∘ Value.truth) hgt
  case geq => exact congrArg (Except.ok ∘ Value.truth) hge
  -- The others take integers to integers.
  all_goals exact absurd hop (by decide)

/-! ### Cutting -/

/-- The expression that cuts a cell to the range of a kind. -/
def Lua.cutExp (k : Kind) (a : Exp) : Exp :=
  match k with
  | .int8 => .binary .sub (.binary .bitAnd (.binary .add a (.integer 128)) (.integer 255))
      (.integer 128)
  | .int16 => .binary .sub (.binary .bitAnd (.binary .add a (.integer 32768)) (.integer 65535))
      (.integer 32768)
  | .uint8 => .binary .bitAnd a (.integer 255)
  | .uint16 => .binary .bitAnd a (.integer 65535)
  | .uint32 | .uint | .uintptr => .binary .bitAnd a (.integer 0xFFFFFFFF)
  | _ => a

section

variable {globals : String → Value} {a : Exp} {x : Except Panic Int}

/-- The text of cutting comes to the cut cell, if what is cut comes to a cell. -/
theorem eval_cutExp_ok {n : BitVec 64} (h : a.eval globals = .ok (.integer n)) :
    (cutExp k a).eval globals = .ok (.integer (cutCell k n)) := by
  cases k <;> first
    | exact h
    | simp only [cutExp, eval_binary .sub (by decide),
        eval_binary .bitAnd (by decide), eval_binary .add (by decide), h]
      rfl

/-- A fault goes through the text of cutting. -/
theorem eval_cutExp_error {fault : Fault} (h : a.eval globals = .error fault) :
    (cutExp k a).eval globals = .error fault := by
  cases k <;> first
    | exact h
    | simp only [cutExp, eval_binary .sub (by decide),
        eval_binary .bitAnd (by decide), eval_binary .add (by decide), h]
      rfl

/-- **Cutting.** An exact result that is cut has the cell of the result of Go. -/
theorem agrees_cut (hk : k.isKept) (h : Agrees Value.ofInt x (a.eval globals)) :
    Agrees Value.ofInt (x.map k.wrap) ((cutExp k a).eval globals) := by
  match x, h with
  | .ok n, h =>
    refine (eval_cutExp_ok h).trans ?_
    rw [cutCell_cell hk]
  | .error .divideByZero, h => exact eval_cutExp_error h
  | .error .shiftCount, _ => trivial

end

/-! ### Results in range -/

/-- The operators of which the exact result stays in range. -/
def stayingOps : List BinaryOp :=
  [.rem, .and, .or, .xor, .andNot, .shr]

/-- Remainders, bits and shifts to the right stay in range without being cut. -/
theorem inRange_exact (hop : op ∈ stayingOps) (hm : k.InRange m) {result : Int}
    (h : op.exact k m n = .ok result) : k.InRange result := by
  -- Division by zero and negative counts give no result, so there is nothing to show of them.
  have hdivided {b r : Int} (h : divided b r = .ok result) : r = result := by
    unfold divided at h
    split at h
    · cases h
    · exact Except.ok.inj h
  have hshifted {f : Nat → Int} (h : shifted n f = .ok result) : f n.toNat = result := by
    unfold shifted at h
    split at h
    · exact Except.ok.inj h
    · cases h
  cases op
  case rem =>
    obtain rfl := hdivided h
    exact inRange_tmod hm n
  case and | or | xor | andNot =>
    obtain rfl := Except.ok.inj h
    exact inRange_number _
  case shr =>
    obtain rfl := hshifted h
    exact inRange_shiftRight hm _
  all_goals exact absurd hop (by decide)

/-- A shift to the left by the width or more leaves nothing. -/
theorem wrap_shiftLeft (m : Int) {count : Nat} (h : k.width ≤ count) :
    k.wrap (m * 2 ^ count) = 0 := by
  have hword : k.word (m * 2 ^ count) = 0 := by
    rw [Kind.word, BitVec.ofInt_mul]
    -- The power is a multiple of the number of words.
    have hpow : BitVec.ofInt k.width (2 ^ count) = 0 := by
      apply BitVec.eq_of_toNat_eq
      rw [BitVec.toNat_ofInt]
      have hdvd : ((2 ^ k.width : Nat) : Int) ∣ 2 ^ count := by
        exact_mod_cast Nat.pow_dvd_pow 2 h
      rw [Int.emod_eq_zero_of_dvd hdvd]
      rfl
    rw [hpow]
    exact BitVec.mul_zero
  rw [Kind.wrap, hword, Kind.number]
  split <;> simp

/-- A shift by the width or more leaves no bit of the result. -/
theorem map_wrap_shl (h : (k.width : Int) ≤ n) :
    (BinaryOp.shl.exact k m n).map k.wrap = (BinaryOp.shl.exact k m n).map fun _ => 0 := by
  change (shifted n fun count => m * 2 ^ count).map k.wrap =
    (shifted n fun count => m * 2 ^ count).map fun _ => 0
  unfold shifted
  split
  · exact congrArg Except.ok (wrap_shiftLeft m (by omega))
  · rfl

/-- Where nothing is left of a shift, that is so for every count that a shift has. -/
theorem agrees_shiftedOut :
    Agrees Value.ofInt ((BinaryOp.shl.exact k m n).map fun _ => 0) (.ok (.ofInt 0)) := by
  change Agrees Value.ofInt ((shifted n fun count => m * 2 ^ count).map fun _ => 0) _
  unfold shifted
  split
  · rfl
  · trivial

end GoLua
