import GoLua.Proofs.Integer.Constant
import GoLua.Proofs.Template.Inline

/-!
# Integer literals of every size

An untyped constant is wrapped into no kind, and a folded operand of a template into none either, so
literals are written of integers of every size. Above the cell that does no harm: the literal is in
hexadecimal, and Lua wraps it around the cell. Below the cell there is no such spelling. The literal
is a decimal numeral with a sign before it, and a decimal numeral that does not fit the cell is a
float.

`Lua.numberOf` reads a text as an integer or as a float. `lower_untyped_integers` says which of the two
a literal is and which number, and that untyped constants and folded operands are written as literals.
-/

namespace GoLua

namespace Lua

/-! ### Integers and floats -/

/-- A number. A float is known by the integer that it is the float nearest to. -/
inductive Number where
  | integer (value : BitVec 64)
  | float (exact : Int)
  deriving DecidableEq, Repr

/-- The natural number that a lexeme is the float of: one in decimal that does not fit the cell. -/
def floatNumeral? (l : List Char) : Option Nat :=
  if l.all Char.isDigit && 0x8000000000000000 ≤ digitsValue 10 l then some (digitsValue 10 l)
  else none

/-- The integer that lexemes are the float of, perhaps with a sign. -/
def signedFloat? : List (List Char) → Option Int
  | [l] => (floatNumeral? l).map fun m : Nat => (m : Int)
  | [['-'], l] => (floatNumeral? l).map fun m : Nat => -(m : Int)
  | _ => none

/-- **The number of a text**, given what the global names hold: a float if it is the numeral of one, and
else the integer that it comes to. -/
def numberOf (globals : String → Value) (text : String) : Option Number :=
  match signedFloat? (lexemes text.toList) with
  | some n => some (.float n)
  | none =>
    match (read text).map (Exp.eval globals) with
    | some (.ok (.integer value)) => some (.integer value)
    | _ => none

section

variable {l : List Char} {text : String} {a : Exp} {globals : String → Value} {value : BitVec 64}
  {m : Nat} {n : Int}

/-- What is read as a float has only digits, and is too large for a cell. -/
theorem floatNumeral?_eq_some (h : floatNumeral? l = some m) :
    l.all Char.isDigit ∧ 0x8000000000000000 ≤ m ∧ digitsValue 10 l = m := by
  unfold floatNumeral? at h
  split at h
  · next hfloat =>
    obtain rfl := Option.some.inj h
    simp only [Bool.and_eq_true, decide_eq_true_eq] at hfloat
    exact ⟨hfloat.1, hfloat.2, rfl⟩
  · cases h

/-- A numeral that is read as a float is not read as an integer. -/
theorem numeral?_of_floatNumeral? (h : floatNumeral? l = some m) : numeral? l = none := by
  obtain ⟨hdigits, hbig, hvalue⟩ := floatNumeral?_eq_some h
  unfold numeral?
  split
  · -- The mark of hexadecimal is no digit.
    cases List.all_eq_true.mp hdigits 'x' (by simp)
  · rw [if_neg]
    simp only [Bool.and_eq_true, decide_eq_true_eq, not_and]
    omega
  · rfl

/-- The numeral of a float is no operand, as only integers are known to be. -/
theorem step_want_of_floatNumeral? (h : floatNumeral? l = some m) (stack : List Frame) :
    step (.want stack) l = none := by
  obtain ⟨hdigits, hbig, hvalue⟩ := floatNumeral?_eq_some h
  have hnone := numeral?_of_floatNumeral? h
  cases l with
  | nil =>
    obtain rfl : 0 = m := hvalue
    cases hbig
  | cons d ds =>
    have hd : d.isDigit = true := by
      simp only [List.all_cons, Bool.and_eq_true] at hdigits
      exact hdigits.1
    -- A digit is no bracket, no quote and no sign, so the numeral is read as an operand.
    have hne {c : Char} {cs : List Char} (hc : c.isDigit = false) : d :: ds ≠ c :: cs := by
      rintro ⟨⟩
      rw [hd] at hc
      cases hc
    have hname : isName (String.ofList (d :: ds)) = false := by
      simp [isName, not_isNameStart_of_isDigit hd]
    have hchar : isNameChar d = true := by simp [isNameChar, Char.isAlphanum, hd]
    rw [step_want_of_isNameChar hchar (hne rfl), operand?, if_neg (hne rfl), if_neg (hne rfl), hname,
      hnone]
    rfl

/-- What is the numeral of a float is read as no integer. -/
theorem read_of_signedFloat? (h : signedFloat? (lexemes text.toList) = some n) :
    read text = none := by
  unfold read readOn
  generalize lexemes text.toList = ls at h
  unfold signedFloat? at h
  split at h
  -- Without a sign the numeral is the first thing that is read.
  · next l =>
    obtain ⟨m, hm, -⟩ := Option.map_eq_some_iff.mp h
    rw [List.foldlM_cons, step_want_of_floatNumeral? hm]
    rfl
  -- With a sign it is read behind the minus.
  · next l =>
    obtain ⟨m, hm, -⟩ := Option.map_eq_some_iff.mp h
    have hsign : step (.want []) ['-'] = some (.want [.unary .neg]) := rfl
    rw [List.foldlM_cons, hsign]
    change (List.foldlM step (.want [.unary .neg]) [l]).bind _ = none
    rw [List.foldlM_cons, step_want_of_floatNumeral? hm]
    rfl
  · cases h

/-- What comes to an integer is that integer. -/
theorem numberOf_of_eval (hread : read text = some a)
    (heval : a.eval globals = .ok (.integer value)) :
    numberOf globals text = some (.integer value) := by
  have hnone : signedFloat? (lexemes text.toList) = none := by
    refine Option.eq_none_iff_forall_ne_some.mpr fun n hn => ?_
    rw [read_of_signedFloat? hn] at hread
    cases hread
  simp only [numberOf, hnone, hread, Option.map_some, heval]

end

/-! ### Literals -/

section

variable {globals : String → Value} {n : Int}

/-- A literal that is not below the least number of the cell comes to its number. -/
theorem numberOf_intLiteral (hlibrary : Library globals) (h : -0x8000000000000000 ≤ n) :
    numberOf globals (intLiteral n) = some (.integer (cell n)) :=
  numberOf_of_eval (tight_intLiteral h).whole.read (eval_literalExp hlibrary n)

/-- The literal of an integer below the cell is a sign and a numeral that does not fit the cell. -/
theorem lexemes_intLiteral_below (h : n < -0x8000000000000000) :
    lexemes (intLiteral n).toList = [['-'], (toString n.natAbs).toList] := by
  obtain ⟨m, rfl⟩ : ∃ m : Nat, n = Int.negSucc m := Int.eq_negSucc_of_lt_zero (by omega)
  -- Below it the literal is written as a sign and digits.
  have htext : (intLiteral (Int.negSucc m)).toList = '-' :: (toString (m + 1)).toList := by
    rw [intLiteral, if_neg (by omega), if_neg (by omega)]
    exact String.toList_append
  have hdigits : (toString (m + 1)).toList.all isNameChar := all_toString (by decide) (m + 1)
  obtain ⟨d, ds, hds⟩ := exists_toList_toString (m + 1)
  have hne : (toString (m + 1)).toList ≠ [] := by
    rw [hds]
    exact List.cons_ne_nil d ds
  rw [htext, lexemes, glue_lexemes fun c hc => ?_, lexemes_of_all_isNameChar hne hdigits]
  · rfl
  · -- The sign does not grow together with the first digit.
    have hname : isNameChar c := List.all_eq_true.mp hdigits c (List.mem_of_mem_head? hc)
    exact (meets_isNameChar hname rfl).2

/-- **Below the cell** a literal is a float. -/
theorem numberOf_intLiteral_below (h : n < -0x8000000000000000) :
    numberOf globals (intLiteral n) = some (.float n) := by
  have hvalue := digitsValue_toString n.natAbs
  have hfloat : floatNumeral? (toString n.natAbs).toList = some n.natAbs := by
    rw [floatNumeral?, hvalue, all_toString (by decide)]
    simp only [Bool.true_and, decide_eq_true_eq]
    exact if_pos (by omega)
  have habs : -(n.natAbs : Int) = n := by omega
  simp only [numberOf, lexemes_intLiteral_below h, signedFloat?, hfloat, Option.map_some, habs]

end

end Lua

open Lower Lua Template

/-! ### Untyped constants -/

/-- **Literals of every size.** From the least integer of the cell on, the literal of an integer is an
integer that is the same up to multiples of `2 ^ 64`; below, it is a float. An untyped constant that no
integer type is desired of is written as the literal of its value, and so is a folded operand, and
neither changes anything. -/
theorem lower_untyped_integers (env : Env) (s : FunctionState) :
    (∀ globals, Library globals → ∀ n : Int,
      (-0x8000000000000000 ≤ n →
        ∃ value, numberOf globals (intLiteral n) = some (.integer value) ∧
          value.toInt ≡ n [ZMOD 2 ^ 64]) ∧
      (n < -0x8000000000000000 → numberOf globals (intLiteral n) = some (.float n))) ∧
    (∀ (e : Expr) (own k : Kind) (n : Int) (desired : Option GoType),
      env.KnownInteger s e.id own n → SpelledIn own desired k → k.isUntyped →
        (lower e desired).runIn env s = (.ok ⟨intLiteral n, n < 0⟩, s)) ∧
    ∀ (self : Lowering) (e : Expr) (n : Int),
      (env.constant? s e.id).bind Constant.toInt? = some n →
        Puts self env .folded s e (intLiteral n) s := by
  -- In the cell or above it the literal stands for the number modulo the cell; below, it is read as
  -- a float.
  refine ⟨fun globals hlibrary n => ⟨fun h => ?_, numberOf_intLiteral_below⟩,
    fun e own k n desired hknown hk huntyped => ?_, fun self e n => Puts.folded_constant⟩
  · exact ⟨cell n, numberOf_intLiteral hlibrary h, toInt_cell_modEq n⟩
  -- An untyped constant is not wrapped, so the literal is of the constant itself.
  · obtain ⟨type, htype, hkind⟩ := hknown.kind
    obtain ⟨c, hconstant, hn⟩ := hknown.value
    change (expression _ e desired).runIn env s = _
    rw [runIn_expression_constant htype hconstant,
      lower_eq_ok_of_integer hkind hknown.isInteger hn hk, wrapInteger_of_isUntyped huntyped]
    rfl

/-- The untyped constants `-1 << 63 - 1` and `1<<64 + 5`, one below the cell and one above it. -/
def beyondCell : Build (Expr × Expr) := do
  let below ← Build.int (-0x8000000000000001) .untypedInt
  return (below, ← Build.int 0x10000000000000005 .untypedInt)

/-- The facts about `beyondCell`. -/
def beyondCellEnv : Env :=
  { facts := (beyondCell.run {}).2.facts }

/-- Above the cell a literal wraps, and below the cell it is a float. -/
theorem lower_untyped_integers_beyondCell :
    (∃ value, numberOf (withLibrary fun _ => .nil) (intLiteral 0x10000000000000005) =
        some (.integer value) ∧ value.toInt ≡ 0x10000000000000005 [ZMOD 2 ^ 64]) ∧
      numberOf (withLibrary fun _ => .nil) (intLiteral (-0x8000000000000001)) =
        some (.float (-0x8000000000000001)) ∧
      (lower (beyondCell.run {}).1.2 none).runIn beyondCellEnv {} = (.ok (.atom "0x5"), {}) ∧
      (lower (beyondCell.run {}).1.1 (some (.basic .float64))).runIn beyondCellEnv {} =
        (.ok (.operation "-9223372036854775809"), {}) ∧
      Puts (within 1) beyondCellEnv .folded {} (beyondCell.run {}).1.1 "-9223372036854775809" {} := by
  obtain ⟨hnumber, hspelled, hfolded⟩ := lower_untyped_integers beyondCellEnv {}
  have habove : beyondCellEnv.KnownInteger {} (beyondCell.run {}).1.2.id .untypedInt
      0x10000000000000005 := ⟨⟨_, rfl, rfl⟩, rfl, ⟨_, rfl, rfl⟩⟩
  have hbelow : beyondCellEnv.KnownInteger {} (beyondCell.run {}).1.1.id .untypedInt
      (-0x8000000000000001) := ⟨⟨_, rfl, rfl⟩, rfl, ⟨_, rfl, rfl⟩⟩
  have htext : intLiteral (-0x8000000000000001) = "-9223372036854775809" := by decide +kernel
  refine ⟨(hnumber _ (library_withLibrary _) _).1 (by decide),
    (hnumber _ (library_withLibrary _) _).2 (by decide), ?_, ?_, ?_⟩
  · have hwrapped : intLiteral 0x10000000000000005 = "0x5" := by decide +kernel
    rw [hspelled _ _ _ _ none habove (.own (by simp)) rfl, hwrapped]
    rfl
  · rw [hspelled _ _ _ _ (some (.basic .float64)) hbelow (.own (by rintro _ ⟨⟩; rfl)) rfl, htext]
    rfl
  · rw [← htext]
    exact hfolded _ _ _ rfl

/-- One below the cell, a constant is written as a float, which is no integer at all. -/
theorem belowCell_float :
    (lower (beyondCell.run {}).1.1 none).runIn beyondCellEnv {} =
        (.ok (.operation "-9223372036854775809"), {}) ∧
      ∀ globals, numberOf globals "-9223372036854775809" = some (.float (-0x8000000000000001)) := by
  have hfloat : signedFloat? (lexemes "-9223372036854775809".toList) =
      some (-0x8000000000000001) := by decide +kernel
  refine ⟨?_, fun globals => ?_⟩
  · rfl
  · simp only [numberOf, hfloat]

end GoLua
