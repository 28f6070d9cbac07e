import GoLua.Proofs.Integer.Literal

/-!
# Halves of integers

A template may ask for the upper or the lower 32 bits of an operand. Of a constant with an integer
view the halves are computed while the program is compiled, and only their numerals are written. Of any
other operand what is written shifts or masks the cell when the program runs. Nothing in the rules
relates the two, so the agreement is a result (`Template.halves_agree`). The argument has three parts.

* As integers, the halves of `n` are what its cell leaves: the lower word is the remainder by `2 ^ 32`,
  and the upper one is the quotient of what the cell holds, read with or without a sign
  (`highWord_mul_add_lowWord`, `highWord_range`).
* As cells, the halves are a shift and a mask of the cell of `n` (`cell_highWord`, `cell_lowWord`).
  Here `n` may be any integer: the cell has forgotten all that is beyond 64 bits, and so have the
  halves.
* As texts, the numerals and the shift are read as the expressions that they look like.
-/

namespace GoLua

namespace Lua

variable {globals : String → Value} {base : String} {a : Exp} {n : Int} {signed : Bool}

/-! ### The halves as integers -/

/-- The low half is what is left of a division by its size. -/
theorem lowWord_range (n : Int) : 0 ≤ lowWord n ∧ lowWord n < 2 ^ 32 :=
  ⟨Int.emod_nonneg n (by decide), Int.emod_lt_of_pos n (by decide)⟩

/-- The upper half has the sign of the whole. -/
theorem highWord_range (n : Int) :
    (-2 ^ 31 ≤ highWord true n ∧ highWord true n < 2 ^ 31) ∧
      0 ≤ highWord false n ∧ highWord false n < 2 ^ 32 := by
  have hle : -0x8000000000000000 ≤ Int.bmod n 0x10000000000000000 := Int.le_bmod (by decide)
  have hlt : Int.bmod n 0x10000000000000000 < 0x8000000000000000 := Int.bmod_lt (by decide)
  simp only [highWord, if_true, Bool.false_eq_true, if_false]
  omega

/-- The halves make up the integer again, up to what the cell has no room for. -/
theorem highWord_mul_add_lowWord (signed : Bool) (n : Int) :
    highWord signed n * 2 ^ 32 + lowWord n ≡ n [ZMOD 2 ^ 64] := by
  -- Whichever way the cell is read, it is `n` up to multiples of `2 ^ 64`.
  have hbmod : Int.bmod n 0x10000000000000000 % 0x10000000000000000 = n % 0x10000000000000000 :=
    Int.bmod_emod
  unfold Int.ModEq highWord lowWord
  split <;> omega

/-! ### The halves as cells -/

/-- The cell of the upper half is the cell of the whole, shifted. -/
theorem cell_highWord (signed : Bool) (n : Int) :
    cell (highWord signed n) = if signed then (cell n).sshiftRight 32 else cell n >>> 32 := by
  cases signed with
  | true =>
    -- With a sign the high half is the quotient of the signed number, which rounds down.
    have htoInt : (cell n).toInt = Int.bmod n 0x10000000000000000 := BitVec.toInt_ofInt n
    rw [if_pos rfl, BitVec.sshiftRight, htoInt, Int.shiftRight_eq_div_pow]
    rfl
  | false =>
    -- Without one it is the quotient of the word, which is below the size of a half.
    have htoNat : (cell n).toNat = (n % 0x10000000000000000).toNat := BitVec.toNat_ofInt n
    have hnonneg : 0 ≤ n % 0x10000000000000000 := Int.emod_nonneg n (by decide)
    apply BitVec.eq_of_toNat_eq
    rw [if_neg (by decide), BitVec.toNat_ushiftRight, htoNat, Nat.shiftRight_eq_div_pow]
    obtain ⟨hzero, hlt⟩ := (highWord_range n).2
    rw [toNat_cell hzero (by omega), highWord, if_neg (by decide)]
    omega

/-- The low half is a mask. -/
theorem cell_lowWord (n : Int) : cell (lowWord n) = cell n &&& 0xFFFFFFFF :=
  (cell_and_mask n (w := 32) (by decide)).symm

/-! ### The halves as texts -/

/-- Where it fits the cell with a sign, a literal is the plain numeral. -/
theorem intLiteral_eq_toString (h : -0x8000000000000000 < n) (h' : n < 0x8000000000000000) :
    intLiteral n = toString n := by
  rw [intLiteral, if_neg (by omega), if_neg (by omega)]

/-- A number below the greatest one of the cell is read back from its digits. -/
theorem numberOf_toString (hlibrary : Library globals) (h : -0x8000000000000000 < n)
    (h' : n < 0x8000000000000000) : numberOf globals (toString n) = some (.integer (cell n)) := by
  rw [← intLiteral_eq_toString h h']
  exact numberOf_intLiteral hlibrary (Int.le_of_lt h)

/-- The low half is read back from its digits. -/
theorem numberOf_lowWord (hlibrary : Library globals) (n : Int) :
    numberOf globals (toString (lowWord n)) = some (.integer (cell (lowWord n))) := by
  have hrange := lowWord_range n
  exact numberOf_toString hlibrary (by omega) (by omega)

/-- So is the high half, with its sign or without. -/
theorem numberOf_highWord (hlibrary : Library globals) (signed : Bool) (n : Int) :
    numberOf globals (toString (highWord signed n)) =
      some (.integer (cell (highWord signed n))) := by
  obtain ⟨hsigned, hunsigned⟩ := highWord_range n
  cases signed <;> exact numberOf_toString hlibrary (by omega) (by omega)

/-- Between two integers there is no fault. -/
theorem apply_ofIntegers (op : Binary) (x y : BitVec 64) :
    op.apply (.integer x) (.integer y) = .ok (op.ofIntegers x y) := by
  cases op <;> rfl

/-- An operation in brackets, on the cell of an integer and a numeral. -/
theorem numberOf_bracketed {between numeral : String} (op : Binary) {m value : BitVec 64}
    (ht : Tight base.toList a) (heval : a.eval globals = .ok (.ofInt n))
    (hnumeral : Tight numeral.toList (.integer m))
    (hbetween : between.toList = ' ' :: (op.spelling ++ [' ']))
    (hop : op ≠ .and ∧ op ≠ .or) (hvalue : op.ofIntegers (cell n) m = .integer value) :
    numberOf globals (Text.parenthesized (base ++ between ++ numeral)) =
      some (.integer value) := by
  -- In brackets the text is one operand, whatever the operator.
  have hwhole : Whole (Text.parenthesized (base ++ between ++ numeral)).toList
      (.binary op a (.integer m)) := by
    rw [toList_parenthesized]
    exact (whole_binary ht hnumeral hbetween).paren.whole
  refine numberOf_of_eval hwhole.read ?_
  rw [eval_binary op hop, heval]
  change op.apply (.integer (cell n)) (.integer m) = _
  rw [apply_ofIntegers, hvalue]

/-- What a cell is shifted by. -/
theorem tight_wordWidth : Tight "32".toList (.integer 32) := by
  have h : Tight (toString (32 : Nat)).toList _ := tight_toString (by decide)
  exact h

/-- The text that shifts the sign down is a call of the library. -/
theorem numberOf_arshift (hlibrary : Library globals) (ht : Tight base.toList a)
    (heval : a.eval globals = .ok (.ofInt n)) :
    numberOf globals (callText Support.arshift [base, "32"]) =
      some (.integer ((cell n).sshiftRight 32)) := by
  -- A call of the library, with the base and the width of a half as its arguments.
  have htext : callText Support.arshift [base, "32"] =
      String.ofList (Support.arshift.toList ++ ['(']) ++ base ++ ", " ++ "32" ++ ")" := by
    apply String.toList_inj.mp
    simp [callText, Text.parenthesized, Text.commaSeparated, String.toList_append]
  rw [htext]
  refine numberOf_of_eval (denotes_call rfl ht.whole tight_wordWidth.whole).whole.read ?_
  rw [eval_call, heval]
  change (globals Support.arshift).apply [.integer (cell n), .integer 32] = _
  rw [hlibrary.arshift, apply_ofTwo]
  rfl

end Lua

open Lower Lua

namespace Template

variable {self : Lowering} {env : Env} {s s' : FunctionState} {e : Expr} {type : GoType}
  {globals : String → Value} {base : String} {bound : Option String} {a : Exp} {n : Int}

/-! ### Halves that are computed when the program runs -/

/-- The shift and the mask come to the halves of the cell that the operand comes to. -/
theorem numberOf_around (hlibrary : Library globals) (signed : Bool) (ht : Tight base.toList a)
    (heval : a.eval globals = .ok (.ofInt n)) :
    numberOf globals (Tag.high.around signed base) = some (.integer (cell (highWord signed n))) ∧
      numberOf globals (Tag.low.around signed base) = some (.integer (cell (lowWord n))) := by
  have hmask : Tight "0xFFFFFFFF".toList (.integer 0xFFFFFFFF) := tight_hexLiteral 0xFFFFFFFF
  constructor
  · cases signed with
    | true => exact (numberOf_arshift hlibrary ht heval).trans (by rw [cell_highWord, if_pos rfl])
    | false =>
      -- Without a sign the high half is a shift in brackets.
      have htext : Tag.high.around false base = Text.parenthesized (base ++ " >> " ++ "32") := by
        simp [Tag.around, Text.parenthesized, String.append_assoc]
      rw [htext, cell_highWord, if_neg (by decide)]
      exact numberOf_bracketed .shiftRight ht heval tight_wordWidth rfl (by decide) rfl
  -- The low half is a mask in brackets.
  · have htext : Tag.low.around signed base = Text.parenthesized (base ++ " & " ++ "0xFFFFFFFF") := by
      simp [Tag.around, Text.parenthesized, String.append_assoc]
    rw [htext, cell_lowWord]
    exact numberOf_bracketed .bitAnd ht heval hmask rfl (by decide) rfl

/-- What is written of an operand whose value is not known: the name of its local, or what it is lowered
to where it stands. -/
inductive WritesBase (self : Lowering) (env : Env) (e : Expr) :
    Option String → FunctionState → String → FunctionState → Prop where
  | bound {name : String} {s : FunctionState} : WritesBase self env e (some name) s name s
  | lowered {f : Fragment} {s s' : FunctionState} (run : (self e none).runIn env s = (.ok f, s')) :
      WritesBase self env e none s f.operand s'

/-- The base that was written is what the rule of operands writes. -/
theorem WritesBase.operandText (h : WritesBase self env e bound s base s') (pattern : String)
    (tag : Tag) : (operandText self pattern tag (.expr e) bound).runIn env s = (.ok base, s') := by
  cases h with
  | bound => rfl
  | lowered run => exact LowerM.runIn_bind_ok run _

/-! ### What is written of a half -/

/-- Whether there is a sign is looked up in the type. -/
theorem runIn_isSigned (htype : env.type? s e.id = some type) :
    ((fun t => !t.isUnsigned) <$> typeOf e).runIn env s = (.ok (!type.isUnsigned), s) :=
  LowerM.runIn_bind_ok (runIn_typeOf_of_type? htype) _

/-- Of a constant with an integer view only the numeral of the half is written. -/
theorem runIn_halfText_constant (htype : env.type? s e.id = some type)
    (hvalue : (env.constant? s e.id).bind Constant.toInt? = some n) (self : Lowering)
    (pattern : String) (tag : Tag) (bound : Option String) :
    (halfText self pattern tag (.expr e) bound).runIn env s =
      (.ok (toString (if tag == .high then highWord (!type.isUnsigned) n else lowWord n)), s) := by
  refine (LowerM.runIn_bind_ok (runIn_isSigned htype) _).trans ?_
  rw [LowerM.runIn_bind_ok (runIn_intConstantOf env s e), hvalue]
  rfl

/-- Of any other operand the half of its cell is written. -/
theorem runIn_halfText_operand (htype : env.type? s e.id = some type)
    (hvalue : (env.constant? s e.id).bind Constant.toInt? = none)
    (hbase : WritesBase self env e bound s base s') (pattern : String) {tag : Tag}
    (htag : tag = .high ∨ tag = .low) :
    (halfText self pattern tag (.expr e) bound).runIn env s =
      (.ok (tag.around (!type.isUnsigned) base), s') := by
  refine (LowerM.runIn_bind_ok (runIn_isSigned htype) _).trans ?_
  rw [LowerM.runIn_bind_ok (runIn_intConstantOf env s e), hvalue]
  refine (LowerM.runIn_bind_ok (hbase.operandText pattern tag) _).trans ?_
  rcases htag with rfl | rfl <;> rfl

/-! ### Agreement -/

/-- **The halves of a constant are those of its cell.** Of a constant with an integer view `n`, two
integers are written, and nothing is lowered. They make up `n` again, up to multiples of `2 ^ 64`; the
lower one has no sign, and the upper one has a sign unless the type has none. They are what the texts
come to, when the program runs, that are written of another operand of the type whose value is not
known and whose cell is that of `n`. -/
theorem halves_agree (htype : env.type? s e.id = some type)
    (hvalue : (env.constant? s e.id).bind Constant.toInt? = some n) :
    ∃ high low : Int,
      (∀ self pattern bound,
        (placeholderText self pattern .high (.expr e) bound).runIn env s = (.ok (toString high), s) ∧
        (placeholderText self pattern .low (.expr e) bound).runIn env s = (.ok (toString low), s)) ∧
      (0 ≤ low ∧ low < 2 ^ 32) ∧ high * 2 ^ 32 + low ≡ n [ZMOD 2 ^ 64] ∧
      (type.isUnsigned = false → -2 ^ 31 ≤ high ∧ high < 2 ^ 31) ∧
      (type.isUnsigned = true → 0 ≤ high ∧ high < 2 ^ 32) ∧
      ∀ globals, Library globals →
        numberOf globals (toString high) = some (.integer (cell high)) ∧
        numberOf globals (toString low) = some (.integer (cell low)) ∧
        ∀ self pattern x bound s₁ s₂ base a, env.type? s₁ x.id = some type →
          (env.constant? s₁ x.id).bind Constant.toInt? = none →
          WritesBase self env x bound s₁ base s₂ → Tight base.toList a →
          a.eval globals = .ok (.ofInt n) →
            ∃ upper lower,
              (placeholderText self pattern .high (.expr x) bound).runIn env s₁ = (.ok upper, s₂) ∧
              (placeholderText self pattern .low (.expr x) bound).runIn env s₁ = (.ok lower, s₂) ∧
              numberOf globals upper = some (.integer (cell high)) ∧
              numberOf globals lower = some (.integer (cell low)) := by
  refine ⟨highWord (!type.isUnsigned) n, lowWord n, fun self pattern bound => ⟨?_, ?_⟩,
    lowWord_range n, highWord_mul_add_lowWord _ n, fun hsigned => ?_, fun hunsigned => ?_,
    fun globals hlibrary => ⟨numberOf_highWord hlibrary _ n, numberOf_lowWord hlibrary n, ?_⟩⟩
  -- The first two are what is written of a constant, then their ranges, and last what a computed
  -- operand gives.
  · exact runIn_halfText_constant htype hvalue self pattern .high bound
  · exact runIn_halfText_constant htype hvalue self pattern .low bound
  · rw [hsigned]
    exact (highWord_range n).1
  · rw [hunsigned]
    exact (highWord_range n).2
  · intro self pattern x bound s₁ s₂ base a htype hunknown hbase ht heval
    obtain ⟨hupper, hlower⟩ := numberOf_around hlibrary (!type.isUnsigned) ht heval
    exact ⟨_, _, runIn_halfText_operand htype hunknown hbase pattern (.inl rfl),
      runIn_halfText_operand htype hunknown hbase pattern (.inr rfl), hupper, hlower⟩

/-- A constant that does not fit the cell, and a variable of its type -/
def constantAndX : Build (Expr × Expr) := do
  let constant ← Build.int 0x18000000000000005 .int
  return (constant, ← Build.var "x" (.basic .int))

/-- The facts about `constantAndX`. -/
def constantAndXEnv : Env :=
  { facts := (constantAndX.run {}).2.facts }

/-- What the cell has no room for is lost in the halves as well, and the highest bit is a sign. -/
theorem halves_agree_constantAndX :
    ∃ high low : Int, high = -0x80000000 ∧ low = 5 ∧
      (placeholderText (within 1) "%h" .high (.expr (constantAndX.run {}).1.1) none).runIn
          constantAndXEnv {} = (.ok (toString high), {}) ∧
      ∃ upper, (placeholderText (within 1) "%h" .high (.expr (constantAndX.run {}).1.2) none).runIn
          constantAndXEnv {} = (.ok upper, {}) ∧
        numberOf (holdingX (cell 0x18000000000000005)) upper = some (.integer (cell high)) := by
  have htype : constantAndXEnv.type? {} (constantAndX.run {}).1.1.id = some (.basic .int) := rfl
  obtain ⟨high, low, hfolded, hlow, hwhole, hsigned, -, hagree⟩ := halves_agree htype rfl
  have hhigh := hsigned rfl
  have hlibrary : Library (holdingX (cell 0x18000000000000005)) := library_withLibrary _
  have hx : Tight "x".toList (.name "x") := ⟨[], _, true, rfl, fun _ => rfl⟩
  have hbase : WritesBase (within 1) constantAndXEnv (constantAndX.run {}).1.2 none {} "x" {} :=
    .lowered (f := .atom "x") rfl
  obtain ⟨upper, lower, hupper, -, hvalue, -⟩ := (hagree _ hlibrary).2.2 (within 1) "%h"
    (constantAndX.run {}).1.2 none {} {} "x" _ rfl rfl hbase hx rfl
  unfold Int.ModEq at hwhole
  exact ⟨high, low, by omega, by omega, (hfolded _ _ _).1, upper, hupper, hvalue⟩

end Template

end GoLua
