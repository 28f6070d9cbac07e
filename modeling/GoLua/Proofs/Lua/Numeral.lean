import GoLua.Lua.Literal
import GoLua.Proofs.Lua.Reader

/-!
# Reading names and integer literals

Names are read as names and integer literals as the integers that they were written for
(`tight_intLiteral`). A literal is an operand whatever its form is: a numeral in decimal or, above the
signed range, in hexadecimal, a numeral with a sign before it, or the name of the least integer.
-/

namespace GoLua.Lua

/-! ### One lexeme -/

/-- Where an operand may begin, a lexeme of name characters is an operand, unless it is the operator
that is spelled like a name. -/
theorem step_want_of_isNameChar {c : Char} {cs : List Char} (hc : isNameChar c)
    (hnot : c :: cs ≠ ['n', 'o', 't']) (stack : List Frame) :
    step (.want stack) (c :: cs) =
      (operand? (c :: cs)).map fun e => .have stack e.1 e.2 := by
  have hne {d : Char} {ds : List Char} (hd : isNameChar d = false) : c :: cs ≠ d :: ds := by
    rintro ⟨⟩
    rw [hc] at hd
    cases hd
  have hunary : unary? (c :: cs) = none := by
    unfold unary?
    split
    · next h => exact absurd h (hne rfl)
    · next h => exact absurd h (hne rfl)
    · next h => exact absurd h hnot
    · rfl
  rw [step, if_neg (hne rfl)]
  simp only [stepWant, if_neg (hne (d := '(') rfl)]
  split
  · next h => exact absurd h (hne rfl)
  · rw [hunary]

/-- The characters of a name. -/
theorem toList_of_isName {name : String} (h : isName name) :
    ∃ c cs, name.toList = c :: cs ∧ isNameChar c ∧ (c :: cs).all isNameChar ∧
      isKeyword name = false := by
  unfold isName at h
  cases hname : name.toList with
  | nil =>
    rw [hname] at h
    cases h
  | cons c cs =>
    simp only [hname, Bool.and_eq_true, Bool.not_eq_true'] at h
    have hc : isNameChar c = true := by
      have hstart := h.1.1
      simp only [isNameStart, isNameChar, Char.isAlphanum, Bool.or_eq_true] at hstart ⊢
      exact hstart.imp .inl id
    exact ⟨c, cs, rfl, hc, by simp [hc, h.1.2], h.2⟩

/-- No reserved word is a name. -/
theorem toList_ne_of_isKeyword {name : String} {cs : List Char} (h : isKeyword name = false)
    (hcs : isKeyword (String.ofList cs)) : name.toList ≠ cs := by
  rintro rfl
  rw [String.ofList_toList, h] at hcs
  cases hcs

theorem lexemes_of_isName {name : String} (h : isName name) :
    lexemes name.toList = [name.toList] := by
  obtain ⟨c, cs, hname, -, hall, -⟩ := toList_of_isName h
  rw [hname]
  exact lexemes_of_all_isNameChar (List.cons_ne_nil c cs) hall

/-- A name is read as a name. -/
theorem step_want_of_isName {name : String} (h : isName name) (stack : List Frame) :
    step (.want stack) name.toList = some (.have stack (.name name) true) := by
  obtain ⟨c, cs, hname, hc, -, hkeyword⟩ := toList_of_isName h
  have hne {ds : List Char} (hds : isKeyword (String.ofList ds)) : c :: cs ≠ ds :=
    hname ▸ toList_ne_of_isKeyword hkeyword hds
  have hback : String.ofList (c :: cs) = name := by rw [← hname, String.ofList_toList]
  rw [hname, step_want_of_isNameChar hc (hne (by decide)), operand?, if_neg (hne (by decide)),
    if_neg (hne (by decide)), hback, if_pos h]
  rfl

/-! ### Numerals -/

/-- Digits are read back as the number that they were written for. -/
theorem digitsValue_toDigits {base : Nat} {f : Char → Char} (hbase : 1 < base)
    (hf : ∀ d < base, digitValue (f d.digitChar) = d) (n : Nat) :
    digitsValue base ((Nat.toDigits base n).map f) = n := by
  induction n using Nat.strongRecOn with
  | ind n ih =>
    rcases Nat.lt_or_ge n base with hlt | hge
    · rw [Nat.toDigits_of_lt_base hlt]
      simp [digitsValue, hf n hlt]
    · rw [Nat.toDigits_of_base_le hbase hge]
      have hdiv := ih (n / base) (Nat.div_lt_self (by omega) hbase)
      unfold digitsValue at hdiv ⊢
      rw [List.map_append, List.foldl_append, hdiv]
      simp only [List.map_cons, List.map_nil, List.foldl_cons, List.foldl_nil]
      rw [hf _ (Nat.mod_lt _ (by omega)), Nat.mul_comm]
      exact Nat.div_add_mod n base

/-- What holds of all digits in a base holds of the digits of a number. -/
theorem all_map_toDigits {base : Nat} {f : Char → Char} {test : Char → Bool} (hbase : 1 < base)
    (hf : ∀ d < base, test (f d.digitChar)) (n : Nat) :
    ((Nat.toDigits base n).map f).all test := by
  induction n using Nat.strongRecOn with
  | ind n ih =>
    rcases Nat.lt_or_ge n base with hlt | hge
    · rw [Nat.toDigits_of_lt_base hlt]
      simp [hf n hlt]
    · rw [Nat.toDigits_of_base_le hbase hge, List.map_append, List.all_append,
        ih (n / base) (Nat.div_lt_self (by omega) hbase)]
      simp [hf _ (Nat.mod_lt n (by omega : 0 < base))]

/-- No name starts with a digit. -/
theorem not_isNameStart_of_isDigit {c : Char} (h : c.isDigit) : isNameStart c = false := by
  have hrange : 48 ≤ c.val.toNat ∧ c.val.toNat ≤ 57 := by
    simp only [Char.isDigit, ge_iff_le, Bool.and_eq_true, decide_eq_true_eq] at h
    exact ⟨UInt32.le_iff_toNat_le.mp h.1, UInt32.le_iff_toNat_le.mp h.2⟩
  have hdigits : ∀ k < 58, 48 ≤ k → isNameStart (Char.ofNat k) = false := by decide
  have hc := hdigits c.toNat (Nat.lt_succ_of_le hrange.2) hrange.1
  rwa [Char.ofNat_toNat] at hc

/-- A lexeme that starts with a digit is a numeral if it is anything. -/
theorem tight_numeral {d : Char} {ds : List Char} {value : BitVec 64} (hd : d.isDigit)
    (hall : (d :: ds).all isNameChar) (hvalue : numeral? (d :: ds) = some value) :
    Tight (d :: ds) (.integer value) := by
  have hne {c : Char} {cs : List Char} (hc : c.isDigit = false) : d :: ds ≠ c :: cs := by
    rintro ⟨⟩
    rw [hd] at hc
    cases hc
  -- So it is neither a word of the language nor a name.
  have hname : isName (String.ofList (d :: ds)) = false := by
    simp [isName, not_isNameStart_of_isDigit hd]
  refine .lexeme false (lexemes_of_all_isNameChar (List.cons_ne_nil d ds) hall) fun stack => ?_
  have hdname : isNameChar d = true := by
    simp only [List.all_cons, Bool.and_eq_true] at hall
    exact hall.1
  rw [step_want_of_isNameChar hdname (hne rfl), operand?, if_neg (hne rfl), if_neg (hne rfl), hname,
    hvalue]
  rfl

/-- What holds of the ten digits holds of those of a number in decimal. -/
theorem all_toString {test : Char → Bool} (htest : ∀ d < 10, test (Nat.digitChar d)) (n : Nat) :
    (toString n).toList.all test := by
  rw [Nat.toString_eq_repr, Nat.toList_repr]
  simpa using @all_map_toDigits 10 id test (by decide) htest n

theorem isDigit_of_mem_head?_toString {n : Nat} {c : Char} (h : c ∈ (toString n).toList.head?) :
    c.isDigit :=
  List.all_eq_true.mp (all_toString (by decide) n) c (List.mem_of_mem_head? h)

theorem digitsValue_toString (n : Nat) : digitsValue 10 (toString n).toList = n := by
  rw [Nat.toString_eq_repr, Nat.toList_repr]
  simpa using @digitsValue_toDigits 10 id (by decide) (by decide) n

theorem exists_toList_toString (n : Nat) : ∃ d ds, (toString n).toList = d :: ds := by
  rw [Nat.toString_eq_repr, Nat.toList_repr]
  exact List.exists_cons_of_ne_nil Nat.toDigits_ne_nil

/-- A natural number in decimal. -/
theorem tight_toString {n : Nat} (h : n < 0x8000000000000000) :
    Tight (toString n).toList (.integer (BitVec.ofNat 64 n)) := by
  have hdigits : (toString n).toList.all Char.isDigit := all_toString (by decide) n
  have hname : (toString n).toList.all isNameChar := all_toString (by decide) n
  have hvalue := digitsValue_toString n
  obtain ⟨d, ds, hds⟩ := exists_toList_toString n
  rw [hds] at hdigits hname hvalue ⊢
  have hd : d.isDigit = true := by
    simp only [List.all_cons, Bool.and_eq_true] at hdigits
    exact hdigits.1
  refine tight_numeral hd hname ?_
  unfold numeral?
  split
  · next h' =>
    -- The second character is a digit as well, and so no mark of another base.
    rw [h'] at hdigits
    cases (List.all_eq_true.mp hdigits 'x' (by simp))
  · next h' =>
    obtain ⟨rfl, rfl⟩ := List.cons.inj h'
    rw [hdigits, hvalue]
    simp [h]
  · next h' => cases h'

/-- A natural number in hexadecimal, cut to the cell. -/
theorem tight_hexLiteral (n : Nat) :
    Tight (hexLiteral n).toList (.integer (BitVec.ofNat 64 n)) := by
  have htext : (hexLiteral n).toList = '0' :: 'x' :: (Nat.toDigits 16 n).map Char.toUpper := by
    simp [hexLiteral, String.toList_append]
  have hdigits : ((Nat.toDigits 16 n).map Char.toUpper).all isHexDigit :=
    all_map_toDigits (by decide) (by decide) n
  have hname : ((Nat.toDigits 16 n).map Char.toUpper).all isNameChar :=
    all_map_toDigits (by decide) (by decide) n
  have hvalue : digitsValue 16 ((Nat.toDigits 16 n).map Char.toUpper) = n :=
    digitsValue_toDigits (by decide) (by decide) n
  rw [htext]
  refine tight_numeral rfl ?_ ?_
  · simp only [List.all_cons, hname]
    rfl
  · obtain ⟨d, ds, hds⟩ := List.exists_cons_of_ne_nil (Nat.toDigits_ne_nil (n := n) (b := 16))
    rw [hds] at hdigits hvalue ⊢
    simp only [List.map_cons] at hdigits hvalue ⊢
    rw [numeral?, if_pos hdigits, hvalue]

/-! ### Integer literals -/

/-- What the literal of an integer is read as. -/
def literalExp (n : Int) : Exp :=
  if n = -0x8000000000000000 then .field (.name "math") "mininteger"
  else if n < 0 then .unary .neg (.integer (BitVec.ofNat 64 n.natAbs))
  else .integer (BitVec.ofNat 64 n.toNat)

/-- **Integer literals are operands.** Only an integer below the cell is none. -/
theorem tight_intLiteral {n : Int} (h : -0x8000000000000000 ≤ n) :
    Tight (intLiteral n).toList (literalExp n) := by
  unfold intLiteral literalExp
  by_cases hmin : n = -0x8000000000000000
  · rw [if_pos hmin, if_pos hmin]
    exact ⟨[], _, true, rfl, fun stack => rfl⟩
  rw [if_neg hmin, if_neg hmin]
  by_cases hbig : 0x8000000000000000 ≤ n
  · -- Hexadecimal digits wrap around the cell, as the literal does.
    rw [if_pos hbig, if_neg (by omega)]
    have hwrap : BitVec.ofNat 64 n.toNat = BitVec.ofNat 64 (n % 0x10000000000000000).toNat := by
      apply BitVec.eq_of_toNat_eq
      simp only [BitVec.toNat_ofNat]
      omega
    rw [hwrap]
    exact tight_hexLiteral _
  rw [if_neg hbig]
  by_cases hneg : n < 0
  · obtain ⟨m, rfl⟩ : ∃ m : Nat, n = -(m : Int) := ⟨n.natAbs, by omega⟩
    have htext : (toString (-(m : Int))).toList = '-' :: (toString m).toList := by
      obtain ⟨k, rfl⟩ : ∃ k, m = k + 1 := ⟨m - 1, by omega⟩
      exact String.toList_append
    rw [if_pos hneg, htext]
    have hm : (-(m : Int)).natAbs = m := by omega
    rw [hm]
    refine (tight_toString (by omega)).unary rfl fun d hd => ?_
    -- The sign does not grow together with the first digit.
    have hname : isNameChar d :=
      List.all_eq_true.mp (all_toString (by decide) m) d (List.mem_of_mem_head? hd)
    exact (meets_isNameChar hname rfl).2
  · rw [if_neg hneg]
    obtain ⟨m, rfl⟩ := Int.eq_ofNat_of_zero_le (Int.not_lt.mp hneg)
    exact tight_toString (by omega)

end GoLua.Lua
