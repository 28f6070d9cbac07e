import GoLua.Proofs.Integer.Text
import GoLua.Proofs.Run.Expression
import GoLua.Tree.Builder
import Mathlib.Data.Int.ModEq

/-!
# Spelling integer constants

An integer constant is wrapped into a kind and written as a literal. Three spellings meet at the limits
of the cell: decimal, hexadecimal above the signed range, where a decimal numeral would be a float, and
a name for the least integer. Whichever is taken, Lua reads the literal as an integer, and as the one
that was wrapped up to multiples of `2 ^ 64` (`spells_integerFragment`).

A desired type has no other part in lowering than to choose the kind. It is handed down through
parentheses, where it meets known values or none (`Expr.knownValues`), and what makes no difference to
these values makes none to the text (`runIn_within_desired`). So a type that is no integer type changes
nothing, and where no value is known no type does.
-/

namespace GoLua

open Lower Lua

/-! ### Literals -/

/-- **Spelling an integer.** The text is read as an integer that is the same up to multiples of
`2 ^ 64`, whatever the global names hold beside the library, and it gets brackets as an operand just if
the integer is negative. -/
structure Fragment.Spells (f : Fragment) (n : Int) : Prop where
  reads : ∃ a value, read f.text = some a ∧
    (∀ globals, Library globals → a.eval globals = .ok (.integer value)) ∧
    value.toInt ≡ n [ZMOD 2 ^ 64]
  parens : f.parens ↔ n < 0

/-- A cell holds a number up to multiples of its size. -/
theorem toInt_cell_modEq (n : Int) : (cell n).toInt ≡ n [ZMOD 2 ^ 64] := by
  rw [cell, BitVec.toInt_ofInt]
  exact Int.bmod_emod

/-- The literal of an integer spells it, unless it is below the cell. -/
theorem spells_integerFragment {n : Int} (h : -0x8000000000000000 ≤ n) :
    (integerFragment n).Spells n where
  reads := ⟨literalExp n, cell n, (denotes_integerFragment h).whole.read,
    fun _ hlibrary => eval_literalExp hlibrary n, toInt_cell_modEq n⟩
  parens := decide_eq_true_iff

/-! ### Kinds -/

/-- **The kind that an integer constant is spelled in.** An integer type that is desired gives its kind,
and any other leaves the constant its own. -/
inductive SpelledIn (own : Kind) : Option GoType → Kind → Prop
  | desired {type : GoType} {k : Kind} (hkind : type.basicKind? = some k) (hinteger : k.isInteger) :
      SpelledIn own (some type) k
  | own {desired : Option GoType} (h : ∀ type ∈ desired, type.isInteger = false) :
      SpelledIn own desired own

namespace SpelledIn

variable {own k : Kind} {desired : Option GoType}

/-- The kind in which a constant is spelled is the one that the rule picks. -/
theorem targetKind_eq (h : SpelledIn own desired k) : targetKind own desired = k := by
  cases h with
  | desired hkind hinteger =>
    rw [targetKind, Option.bind_some, hkind, Option.filter_some_pos hinteger, Option.getD_some]
  | own hother =>
    rcases desired with _ | type
    · rfl
    have hnone : type.basicKind?.filter Kind.isInteger = none :=
      Option.filter_eq_none_iff.mpr fun k hk hinteger => by
        simpa [GoType.isInteger, hk, hinteger] using hother type rfl
    rw [targetKind, Option.bind_some, hnone, Option.getD_none]

/-- It is a kind of integers, as the own one is. -/
theorem isInteger (h : SpelledIn own desired k) (hown : own.isInteger) : k.isInteger := by
  cases h with
  | desired _ hinteger => exact hinteger
  | own _ => exact hown

end SpelledIn

/-! ### Constants -/

/-- A node that is known to be an integer: the kind of its type, and the integer view of its value. -/
structure Env.KnownInteger (env : Env) (s : FunctionState) (id : NodeId) (own : Kind) (n : Int) :
    Prop where
  kind : ∃ type, env.type? s id = some type ∧ type.basicKind? = some own
  isInteger : own.isInteger
  value : ∃ c, env.constant? s id = some c ∧ c.toInt? = some n

/-- The values that are known of an expression, and of what is in its parentheses. -/
def Expr.knownValues (constant? : NodeId → Option Constant) : Expr → List Constant
  | .paren n inner => (constant? n.id).toList ++ inner.knownValues constant?
  | e => (constant? e.id).toList
termination_by structural e => e

/-- What is known about a node of a tree is among what is known about the tree. -/
theorem mem_knownValues {constant? : NodeId → Option Constant} {e : Expr} {c : Constant}
    (h : constant? e.id = some c) : c ∈ e.knownValues constant? := by
  have hmem : c ∈ (constant? e.id).toList := Option.mem_toList.mpr h
  cases e with
  | paren n inner => exact List.mem_append_left _ hmem
  | _ => exact hmem

section

variable {env : Env} {s : FunctionState} {e : Expr} {type : GoType} {c : Constant} {own k : Kind}
  {n : Int} {desired desired' : Option GoType}

/-- The rule of constants, for integers. -/
theorem lower_eq_ok_of_integer (hkind : type.basicKind? = some own) (hown : own.isInteger)
    (hn : c.toInt? = some n) (hk : SpelledIn own desired k) (location : Location) :
    c.lower type desired location = .ok (integerFragment (wrapInteger n k)) := by
  rw [Constant.lower, hkind]
  simp only [inKind_of_isInteger hown hn, hk.targetKind_eq]

/-- A type that is no integer type makes no difference to a constant. -/
theorem lower_some_eq_none {other : GoType} (h : other.isInteger = false) (c : Constant)
    (type : GoType) (location : Location) :
    c.lower type (some other) location = c.lower type none location := by
  have htarget (kind : Kind) : targetKind kind (some other) = kind :=
    (SpelledIn.own (by simpa using h)).targetKind_eq
  have hview (kind : Kind) : c.inKind kind (some other) = c.inKind kind none := by
    rw [Constant.inKind, htarget]
    rfl
  simp only [Constant.lower, hview]

/-- **What a desired type can change.** Two desired types give the same if they do so for the values that
are known of the expression and in its parentheses. -/
theorem runIn_within_desired (depth : Nat)
    (h : ∀ c ∈ e.knownValues (env.constant? s), ∀ (type : GoType) (location : Location),
      c.lower type desired location = c.lower type desired' location) :
    (within depth e desired).runIn env s = (within depth e desired').runIn env s := by
  induction depth generalizing e s with
  | zero => rfl
  | succ depth ih =>
    change (expression (within depth) e desired).runIn env s =
      (expression (within depth) e desired').runIn env s
    rcases htype : env.type? s e.id with _ | type
    · rw [runIn_expression_untyped htype, runIn_expression_untyped htype]
    rcases hconstant : env.constant? s e.id with _ | c
    · rw [runIn_expression_form htype hconstant, runIn_expression_form htype hconstant]
      cases e with
      | paren node inner =>
        -- The desired type is handed on, to an expression about which the same is known.
        refine ih fun c hc => h c (List.mem_append_right _ ?_)
        split at hc <;> exact hc
      | _ => rfl
    · rw [runIn_expression_constant htype hconstant, runIn_expression_constant htype hconstant,
        h c (mem_knownValues hconstant)]

/-- **Integer constants are spelled faithfully.** A constant is lowered to a literal that spells its
value wrapped into its kind, or into that of the integer type that is desired, and the state stays as it
was; only the untyped kinds, which have no range, are left out. No other desired type changes anything,
and where no value is known, also in parentheses, none does. -/
theorem lower_spells_integers (env : Env) (s : FunctionState) :
    (∀ (e : Expr) (own k : Kind) (n : Int) (desired : Option GoType),
      env.KnownInteger s e.id own n → SpelledIn own desired k → k.isUntyped = false →
        ∃ f, (lower e desired).runIn env s = (.ok f, s) ∧ f.Spells (wrapInteger n k)) ∧
      (∀ (e : Expr) (other : GoType), other.isInteger = false →
        (lower e (some other)).runIn env s = (lower e none).runIn env s) ∧
      ∀ (e : Expr) (desired desired' : Option GoType), e.knownValues (env.constant? s) = [] →
        (lower e desired).runIn env s = (lower e desired').runIn env s := by
  refine ⟨fun e own k n desired hknown hk htyped => ?_, fun e other hother => ?_,
    fun e desired desired' hnone => ?_⟩
  -- An integer that is known, in its own or the desired kind: the least one in range is that of the
  -- cell.
  · obtain ⟨type, htype, hkind⟩ := hknown.kind
    obtain ⟨c, hconstant, hn⟩ := hknown.value
    have hsized : k.isSized := by
      rw [Kind.isSized, hk.isInteger hknown.isInteger, htyped]
      rfl
    have hleast : -0x8000000000000000 ≤ wrapInteger n k := by
      rw [wrapInteger_eq_wrap hsized]
      exact (le_of_inRange (inRange_wrap k n)).1
    refine ⟨_, ?_, spells_integerFragment hleast⟩
    change (expression _ e desired).runIn env s = _
    rw [runIn_expression_constant htype hconstant,
      lower_eq_ok_of_integer hkind hknown.isInteger hn hk]
    rfl
  -- Any other desired type changes nothing, for every constant, and so where no constant is known.
  · exact runIn_within_desired _ fun c _ => lower_some_eq_none hother c
  · exact runIn_within_desired _ fun c hc => by
      rw [hnone] at hc
      cases hc

/-- The untyped constant `1 << 63`, and `(x)` for a variable `x` of the type `int8`. -/
def highestBit : Build (Expr × Expr) := do
  let bit ← Build.int 0x8000000000000000 .untypedInt
  return (bit, ← Build.paren (← Build.var "x" (.basic .int8)))

/-- The facts about `highestBit`. -/
def highestBitEnv : Env :=
  { facts := (highestBit.run {}).2.facts }

/-- The highest bit is a number beyond the signed range, or the least integer. -/
theorem lower_spells_integers_highestBit :
    (∃ f, (lower (highestBit.run {}).1.1 (some (.basic .uint64))).runIn highestBitEnv {} = (.ok f, {}) ∧
        f = .atom "0x8000000000000000" ∧ f.Spells 0x8000000000000000) ∧
      (∃ f, (lower (highestBit.run {}).1.1 (some (.basic .int64))).runIn highestBitEnv {} =
          (.ok f, {}) ∧
        f = .operation "math.mininteger" ∧ f.Spells (-0x8000000000000000)) ∧
      (lower (highestBit.run {}).1.1 (some (.basic .float64))).runIn highestBitEnv {} =
        (lower (highestBit.run {}).1.1 none).runIn highestBitEnv {} ∧
      (lower (highestBit.run {}).1.2 (some (.basic .uint64))).runIn highestBitEnv {} =
        (lower (highestBit.run {}).1.2 none).runIn highestBitEnv {} := by
  obtain ⟨hspelled, hother, hunknown⟩ := lower_spells_integers highestBitEnv {}
  have hknown : highestBitEnv.KnownInteger {} (highestBit.run {}).1.1.id .untypedInt
      0x8000000000000000 := ⟨⟨_, rfl, rfl⟩, rfl, ⟨_, rfl, rfl⟩⟩
  refine ⟨?_, ?_, hother _ _ rfl, hunknown _ _ _ rfl⟩
  · obtain ⟨f, hrun, hf⟩ := hspelled _ _ .uint64 _ (some (.basic .uint64)) hknown
      (.desired rfl rfl) rfl
    have htext : ((lower (highestBit.run {}).1.1 (some (.basic .uint64))).runIn
        highestBitEnv {}).1.toOption = some (.atom "0x8000000000000000") := by decide +kernel
    rw [hrun] at htext
    exact ⟨f, hrun, Option.some.inj htext, hf⟩
  · obtain ⟨f, hrun, hf⟩ := hspelled _ _ .int64 _ (some (.basic .int64)) hknown
      (.desired rfl rfl) rfl
    have htext : ((lower (highestBit.run {}).1.1 (some (.basic .int64))).runIn
        highestBitEnv {}).1.toOption = some (.operation "math.mininteger") := by decide +kernel
    rw [hrun] at htext
    exact ⟨f, hrun, Option.some.inj htext, hf⟩

end

end GoLua
