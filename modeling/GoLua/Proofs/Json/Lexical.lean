import GoLua.Json.Writer
import Mathlib.Data.List.DropRight
import Mathlib.Data.List.TakeDrop

/-!
# Reading strings and numbers back

A string is read back as the characters that it was written for, and says of each of them whether
it was written with a backslash (`stringPieces_text`). A natural number is read back from its digits
(`number_int`). A number ends where no character can continue it, so what follows the text of a
number makes no difference to it (`number_append`).
-/

namespace GoLua.Json

/-! ### Blanks -/

/-- Blanks are skipped together with those that follow. -/
theorem skipBlanks_append {blanks : List Char} (h : blanks.all isBlank) (r : List Char) :
    skipBlanks (blanks ++ r) = skipBlanks r := by
  unfold skipBlanks
  rw [List.dropWhile_append_of_pos (List.all_eq_true.mp h)]

/-- Nothing is skipped before another character. -/
theorem skipBlanks_cons {c : Char} (h : isBlank c = false) (r : List Char) :
    skipBlanks (c :: r) = c :: r := by
  unfold skipBlanks
  rw [List.dropWhile_cons_of_neg (by rw [h]; exact Bool.false_ne_true)]

theorem skipBlanks_skipBlanks (s : List Char) : skipBlanks (skipBlanks s) = skipBlanks s :=
  List.dropWhile_idempotent isBlank s

/-! ### Strings -/

/-- The characters that are written with a backslash. -/
def needsEscape (c : Char) : Bool :=
  c == '"' || c == '\\' || c < ' '

/-- The characters that are written as a backslash and a letter. -/
def lettered : List Char :=
  ['"', '\\', '\x08', '\x0c', '\n', '\r', '\t']

/-- How a character is written in a string. -/
def pieceOf (c : Char) : StringPiece :=
  if c ∈ lettered then .escape c
  else if c < ' ' then .unit c.toNat
  else .char c

/-- A character without a letter of its own is written as it is, or by its code if it is a control
character. -/
theorem charText_of_not_mem {c : Char} (h : c ∉ lettered) :
    charText c = if c < ' ' then "\\u" ++ fourHexDigits c.toNat else c.toString := by
  unfold charText
  split
  all_goals first | rfl | exact absurd (by decide) h

/-- A character is read as an escape exactly if it was written as one. -/
theorem isEscaped_pieceOf (c : Char) : (pieceOf c).isEscaped = needsEscape c := by
  unfold pieceOf needsEscape
  by_cases hletter : c ∈ lettered
  · rw [if_pos hletter]
    simp only [lettered, List.mem_cons, List.not_mem_nil, or_false] at hletter
    rcases hletter with rfl | rfl | rfl | rfl | rfl | rfl | rfl <;> rfl
  · have hquote : (c == '"') = false := beq_eq_false_iff_ne.mpr fun h => hletter (h ▸ by decide)
    have hslash : (c == '\\') = false := beq_eq_false_iff_ne.mpr fun h => hletter (h ▸ by decide)
    rw [if_neg hletter, hquote, hslash]
    split
    · next hcontrol => simp [StringPiece.isEscaped, hcontrol]
    · next hplain => simp [StringPiece.isEscaped, hplain]

/-- The unit that is written with exactly these digits. -/
def unitOf? : List Char → Option Nat
  | [a, b, c, d] => hexUnit? a b c d
  | _ => none

/-- A code has four digits. -/
theorem exists_of_unitOf? {cs : List Char} {n : Nat} (h : unitOf? cs = some n) :
    ∃ a b c d, cs = [a, b, c, d] ∧ hexUnit? a b c d = some n := by
  unfold unitOf? at h
  split at h
  · next a b c d => exact ⟨a, b, c, d, rfl, h⟩
  · cases h

/-- A control is written with the digits of its number. -/
theorem unitOf?_fourHexDigits {n : Nat} (h : n < 32) :
    unitOf? (fourHexDigits n).toList = some n := by
  have hall : ∀ n : Fin 32, unitOf? (fourHexDigits n).toList = some n.val := by decide +kernel
  exact hall ⟨n, h⟩

/-- One character is read back as the piece that it was written as. -/
theorem stringPieces_charText (c : Char) (r : List Char) :
    stringPieces ((charText c).toList ++ r) =
      (stringPieces r).map fun p => (pieceOf c :: p.1, p.2) := by
  -- A character with a letter is read back by that letter; a control character by its four digits;
  -- all others stand for themselves, since neither the quote nor the backslash is among them.
  by_cases hletter : c ∈ lettered
  · simp only [lettered, List.mem_cons, List.not_mem_nil, or_false] at hletter
    rcases hletter with rfl | rfl | rfl | rfl | rfl | rfl | rfl <;> rfl
  · rw [charText_of_not_mem hletter, pieceOf, if_neg hletter]
    split
    · next hcontrol =>
      have hcode : c.toNat < 32 := hcontrol
      obtain ⟨a, b, d, e, htext, hunit⟩ := exists_of_unitOf? (unitOf?_fourHexDigits hcode)
      rw [String.toList_append, htext]
      change stringPieces ('\\' :: 'u' :: a :: b :: d :: e :: r) = _
      rw [stringPieces, hunit]
    · next hplain =>
      have hne {d : Char} (hd : d ∈ lettered) : c ≠ d := fun h => hletter (h ▸ hd)
      have hslash : (c == '\\') = false := beq_eq_false_iff_ne.mpr (hne (by decide))
      have htext : (c.toString).toList = [c] := String.toList_singleton c
      rw [htext, List.singleton_append, stringPieces, if_neg (by simp [hplain, hslash])]
      · exact hne (by decide)
      · rintro _ _ _ _ _ rfl
        exact absurd rfl (hne (by decide))
      · rintro _ _ rfl
        exact absurd rfl (hne (by decide))

/-- The string is read up to its closing quote. -/
theorem stringPieces_text (cs r : List Char) :
    stringPieces ((String.join (cs.map charText)).toList ++ '"' :: r) =
      some (cs.map pieceOf, r) := by
  rw [String.toList_join, List.flatMap_map]
  induction cs with
  | nil => rfl
  | cons c cs ih =>
    rw [List.flatMap_cons, List.append_assoc, stringPieces_charText, ih]
    rfl

/-- The pieces of a text join to the text again: no code below the space is half of a surrogate
pair. -/
theorem joinPieces_pieceOf (cs : List Char) : joinPieces (cs.map pieceOf) = some cs := by
  induction cs with
  | nil => rfl
  | cons c cs ih =>
    rw [List.map_cons, pieceOf]
    split
    · rw [joinPieces, ih]
      rfl
    · split
      · next hcontrol =>
        have hlt : c.toNat < 32 := hcontrol
        have hhigh : isHighUnit c.toNat = false := by simp [isHighUnit]; omega
        have hlow : isLowUnit c.toNat = false := by simp [isLowUnit]; omega
        rw [joinPieces.eq_def]
        simp only [hhigh, hlow, ih, Option.map_some, Char.ofNat_toNat, Bool.false_eq_true, if_false]
      · rw [joinPieces, ih]
        rfl

/-- The text of a string between its quotes is read back. -/
theorem stringOf_pieceOf (s : String) : stringOf (s.toList.map pieceOf) = .string s := by
  unfold stringOf
  rw [joinPieces_pieceOf]
  exact congrArg Json.string String.ofList_toList

/-- A key is as it is written: it is escaped if one of its characters has to be. -/
def Key.IsWritten (key : Key) : Prop :=
  key.escaped = key.text.toList.any needsEscape

/-- A key that is written is read back as the same key. -/
theorem keyOf?_pieceOf {key : Key} (h : key.IsWritten) :
    keyOf? (key.text.toList.map pieceOf) = some key := by
  have hescaped : (key.text.toList.map pieceOf).any StringPiece.isEscaped = key.escaped := by
    rw [h, List.any_map]
    exact congrArg _ (funext isEscaped_pieceOf)
  rw [keyOf?, joinPieces_pieceOf, Option.map_some, String.ofList_toList, hescaped]

/-! ### Numbers -/

/-- The characters that can continue a number. -/
def isNumberChar (c : Char) : Bool :=
  c.isDigit || c == '.' || c == 'e' || c == 'E'

/-- What follows a number: nothing that can continue it. -/
def EndsNumber (r : List Char) : Prop :=
  ∀ c ∈ r.head?, isNumberChar c = false

section

variable {s r rest : List Char}

/-- A number ends before a character that is no digit. -/
theorem EndsNumber.not_isDigit (hr : EndsNumber r) : ∀ c ∈ r.head?, c.isDigit = false := by
  intro c hc
  have := hr c hc
  simp only [isNumberChar, Bool.or_eq_false_iff] at this
  exact this.1.1.1

/-- What follows a span changes nothing in it if it does not start with a character of the span. -/
theorem span_append {p : Char → Bool} (hr : ∀ c ∈ r.head?, p c = false) (s : List Char) :
    (s ++ r).span p = ((s.span p).1, (s.span p).2 ++ r) := by
  simp only [List.span_eq_takeWhile_dropWhile]
  induction s with
  | nil =>
    cases r with
    | nil => rfl
    | cons c r =>
      have hc : ¬ p c = true := by rw [hr c rfl]; exact Bool.false_ne_true
      simp [hc]
  | cons c s ih =>
    -- The tail is reached when every character before it is in the span.
    rw [Prod.mk.injEq] at ih ⊢
    by_cases hc : p c
    · simpa [hc] using ih
    · simp [hc]

/-- The digits of an exponent, whose sign has been read. -/
def exponentDigits (negative : Bool) (s : List Char) : Option (List Char × Bool × List Char) :=
  match s.span Char.isDigit with
  | ([], _) => none
  | (digits, r) => some (digits, negative, r)

/-- An exponent without a sign is its digits. -/
theorem exponentPart_unsigned {c : Char} (hminus : c ≠ '-') (hplus : c ≠ '+') (s : List Char) :
    exponentPart (c :: s) = exponentDigits false (c :: s) := by
  unfold exponentPart exponentDigits
  split
  next hs =>
    split at hs
    · next h => exact absurd (List.cons.inj h).1 hminus
    · next h => exact absurd (List.cons.inj h).1 hplus
    · cases hs
      rfl

/-- An exponent ends where the number does. -/
theorem exponentDigits_append (hr : EndsNumber r) {below negative : Bool} {digits : List Char}
    (h : exponentDigits below s = some (digits, negative, rest)) :
    exponentDigits below (s ++ r) = some (digits, negative, rest ++ r) := by
  unfold exponentDigits at h ⊢
  rw [span_append hr.not_isDigit]
  rcases hspan : s.span Char.isDigit with ⟨_ | ⟨c, cs⟩, tail⟩ <;> rw [hspan] at h <;> cases h
  rfl

/-- With its sign it does too. -/
theorem exponentPart_append (hr : EndsNumber r) {digits : List Char} {negative : Bool}
    (h : exponentPart s = some (digits, negative, rest)) :
    exponentPart (s ++ r) = some (digits, negative, rest ++ r) := by
  -- A sign, if there is one, is the first character, whatever follows.
  cases s with
  | nil => cases h
  | cons c s =>
    by_cases hminus : c = '-'
    · subst hminus
      exact exponentDigits_append (s := s) hr h
    · by_cases hplus : c = '+'
      · subst hplus
        exact exponentDigits_append (s := s) hr h
      · rw [List.cons_append]
        rw [exponentPart_unsigned hminus hplus] at h ⊢
        exact exponentDigits_append hr h

/-- A number whose digits have been read, up to its exponent. Without an exponent it is `plain`. -/
def atExponent (negative : Bool) (whole fraction : List Char) (plain : Json) (s : List Char) :
    Option (Json × List Char) :=
  match s with
  | [] => some (plain, [])
  | c :: r =>
    if c == 'e' || c == 'E' then
      (exponentPart r).map fun p =>
        (match readDouble whole fraction p.1 p.2.1 with
          | some x => .real (if negative then x.neg else x)
          | none => .unreadable, p.2.2)
    else some (plain, c :: r)

/-- What ends a number is not taken for an exponent, nor for a part of one. -/
theorem atExponent_append (hr : EndsNumber r) {negative : Bool} {whole fraction : List Char}
    {plain v : Json} (h : atExponent negative whole fraction plain s = some (v, rest)) :
    atExponent negative whole fraction plain (s ++ r) = some (v, rest ++ r) := by
  -- A text that ends here could go on with the exponent of what follows, but an `e` does not end a
  -- number.
  cases s with
  | nil =>
    cases h
    cases r with
    | nil => rfl
    | cons c r =>
      have hc := hr c rfl
      simp only [isNumberChar, Bool.or_eq_false_iff] at hc
      simp [atExponent, hc.1.2, hc.2]
  | cons c s =>
    unfold atExponent at h ⊢
    rw [List.cons_append]
    dsimp only at h ⊢
    split at h
    · next hexp =>
      obtain ⟨⟨digits, below, tail⟩, hpart, heq⟩ := Option.map_eq_some_iff.mp h
      rw [if_pos hexp, exponentPart_append hr hpart]
      cases heq
      rfl
    · next hexp =>
      cases h
      rw [if_neg hexp]
      rfl

/-- A number whose digits before its point have been read. -/
def afterWhole (negative : Bool) (whole s : List Char) : Option (Json × List Char) :=
  match s with
  | '.' :: r =>
    match r.span Char.isDigit with
    | ([], _) => none
    | (fraction, r) => atExponent negative whole fraction
        (match readDouble whole fraction [] false with
          | some x => .real (if negative then x.neg else x)
          | none => .unreadable) r
  | s =>
    atExponent negative whole []
      (.int negative (whole.foldl (fun n c => n * 10 + digitValue c) 0)) s

/-- Without a point the fraction is empty. -/
theorem afterWhole_of_ne {negative : Bool} {whole : List Char} (hs : s.head? ≠ some '.') :
    afterWhole negative whole s =
      atExponent negative whole []
        (.int negative (whole.foldl (fun n c => n * 10 + digitValue c) 0)) s := by
  unfold afterWhole
  split
  · exact absurd rfl hs
  · rfl

/-- What ends a number is not taken for its fraction. -/
theorem afterWhole_append (hr : EndsNumber r) {negative : Bool} {whole : List Char} {v : Json}
    (h : afterWhole negative whole s = some (v, rest)) :
    afterWhole negative whole (s ++ r) = some (v, rest ++ r) := by
  -- Either the point stands in the text itself, or there is none: a point does not end a number.
  by_cases hpoint : s.head? = some '.'
  · obtain ⟨t, rfl⟩ := List.head?_eq_some_iff.mp hpoint
    unfold afterWhole at h ⊢
    simp only [List.cons_append] at h ⊢
    rw [span_append hr.not_isDigit]
    rcases hspan : t.span Char.isDigit with ⟨_ | ⟨c, fraction⟩, tail⟩
    · rw [hspan] at h
      cases h
    · rw [hspan] at h
      exact atExponent_append hr h
  · have hpoint' : (s ++ r).head? ≠ some '.' := by
      rw [List.head?_append]
      cases hs : s.head? with
      | some c => rwa [hs] at hpoint
      | none =>
        intro hdot
        exact absurd (hr '.' hdot) (by decide)
    rw [afterWhole_of_ne hpoint] at h
    rw [afterWhole_of_ne hpoint']
    exact atExponent_append hr h

/-- The digits before the point: there is one, and none behind a leading zero. -/
def IsWhole (whole : List Char) : Prop :=
  whole ≠ [] ∧ ∀ c cs, whole ≠ '0' :: c :: cs

/-- A number is its whole part, read up to the first character that is no digit, and the rest. -/
theorem unsignedNumber_of_span {negative : Bool} {whole tail : List Char}
    (hspan : s.span Char.isDigit = (whole, tail)) (h : IsWhole whole) :
    unsignedNumber negative s = afterWhole negative whole tail := by
  unfold unsignedNumber
  rw [hspan]
  -- The reader looks at the point before it looks at the exponent; the branches without one agree
  -- with `afterWhole`.
  dsimp only
  split
  · next heq => exact absurd (congrArg Prod.fst heq) h.1
  · next heq => exact absurd (congrArg Prod.fst heq) (h.2 _ _)
  · next t _ _ heq =>
    cases heq
    rw [afterWhole]
    rcases t.span Char.isDigit with ⟨_ | ⟨f, fs⟩, _ | ⟨c, cs⟩⟩ <;> rfl
  · next hpoint heq =>
    cases heq
    rw [afterWhole_of_ne (by simpa using hpoint)]
    rfl
  · next heq =>
    cases heq
    rfl

/-- What is read as a number starts with a whole part. -/
theorem isWhole_of_unsignedNumber {negative : Bool} {p : Json × List Char}
    (h : unsignedNumber negative s = some p) : IsWhole (s.span Char.isDigit).1 := by
  unfold unsignedNumber at h
  rcases hspan : s.span Char.isDigit with ⟨whole, tail⟩
  rw [hspan] at h
  refine ⟨?_, ?_⟩
  · rintro rfl
    cases h
  · rintro c cs rfl
    cases h

/-- What ends a number does not change how it is read. -/
theorem unsignedNumber_append (hr : EndsNumber r) {negative : Bool} {v : Json}
    (h : unsignedNumber negative s = some (v, rest)) :
    unsignedNumber negative (s ++ r) = some (v, rest ++ r) := by
  have hwhole := isWhole_of_unsignedNumber h
  rw [unsignedNumber_of_span rfl hwhole] at h
  rw [unsignedNumber_of_span (span_append hr.not_isDigit s) hwhole]
  exact afterWhole_append hr h

/-- Without a minus sign the number is unsigned. -/
theorem number_cons {c : Char} (hminus : c ≠ '-') (s : List Char) :
    number (c :: s) = unsignedNumber false (c :: s) := by
  unfold number
  split
  · next heq => exact absurd (List.cons.inj heq).1 hminus
  · rfl

/-- The same for a signed number. -/
theorem number_append (hr : EndsNumber r) {v : Json} (h : number s = some (v, rest)) :
    number (s ++ r) = some (v, rest ++ r) := by
  cases s with
  | nil => cases h
  | cons c s =>
    by_cases hminus : c = '-'
    · subst hminus
      exact unsignedNumber_append (s := s) hr h
    · rw [List.cons_append]
      rw [number_cons hminus] at h ⊢
      exact unsignedNumber_append hr h

/-! ### Digits -/

theorem all_toDigits (n : Nat) : ∀ c ∈ Nat.toDigits 10 n, c.isDigit = true :=
  fun _ h => Nat.isDigit_of_mem_toDigits (by decide) (by decide) h

theorem toList_toString (n : Nat) : (toString n).toList = Nat.toDigits 10 n := by
  rw [Nat.toString_eq_repr, Nat.toList_repr]

/-- The digits of a number make the number. -/
theorem foldl_toDigits (n : Nat) :
    (Nat.toDigits 10 n).foldl (fun n c => n * 10 + digitValue c) 0 = n := by
  have hvalue := Nat.ofDigitChars_toDigits (b := 10) (n := n) (by decide) (by decide)
  rw [Nat.ofDigitChars_eq_foldl] at hvalue
  simpa only [digitValue, Nat.mul_comm 10] using hvalue

/-- Only zero starts with a zero. -/
theorem head?_toDigits_ne_zero {n : Nat} (h : n ≠ 0) : (Nat.toDigits 10 n).head? ≠ some '0' := by
  induction n using Nat.strongRecOn with
  | ind n ih =>
    rcases Nat.lt_or_ge n 10 with hlt | hge
    · have hall : ∀ n < 10, n ≠ 0 → (Nat.toDigits 10 n).head? ≠ some '0' := by decide
      exact hall n hlt h
    · -- The first digit is that of the number without its last one.
      rw [Nat.toDigits_of_base_le (by decide) hge,
        List.head?_append_of_ne_nil _ Nat.toDigits_ne_nil]
      exact ih (n / 10) (Nat.div_lt_self (by omega) (by decide)) (by omega)

/-- A natural number is written without a leading zero. -/
theorem isWhole_toDigits (n : Nat) : IsWhole (Nat.toDigits 10 n) := by
  refine ⟨Nat.toDigits_ne_nil, fun c cs heq => ?_⟩
  by_cases hn : n = 0
  · subst hn
    cases heq
  · exact head?_toDigits_ne_zero hn (by rw [heq]; rfl)

/-- Its digits are read up to where the number ends. -/
theorem span_toDigits (hr : EndsNumber r) (n : Nat) :
    (Nat.toDigits 10 n ++ r).span Char.isDigit = (Nat.toDigits 10 n, r) := by
  rw [span_append hr.not_isDigit, List.span_eq_takeWhile_dropWhile,
    List.takeWhile_eq_self_iff.mpr (all_toDigits n), List.dropWhile_eq_nil_iff.mpr (all_toDigits n)]
  rfl

/-- A natural number is read back. -/
theorem unsignedNumber_toDigits (hr : EndsNumber r) (negative : Bool) (n : Nat) :
    unsignedNumber negative (Nat.toDigits 10 n ++ r) = some (.int negative n, r) := by
  have hpoint : r.head? ≠ some '.' := fun h => absurd (hr '.' h) (by decide)
  rw [unsignedNumber_of_span (span_toDigits hr n) (isWhole_toDigits n), afterWhole_of_ne hpoint,
    foldl_toDigits]
  have hend : atExponent negative (Nat.toDigits 10 n) [] (.int negative n) [] =
      some (.int negative n, []) := rfl
  simpa using atExponent_append hr hend

/-- **Integers are read back.** -/
theorem number_int (hr : EndsNumber r) (negative : Bool) (n : Nat) :
    number (((if negative then "-" else "") ++ toString n).toList ++ r) =
      some (.int negative n, r) := by
  rw [String.toList_append, toList_toString]
  cases negative with
  | true => exact unsignedNumber_toDigits hr true n
  -- The digits are not empty, and none of them is a minus sign.
  | false =>
    obtain ⟨d, ds, hds⟩ := List.exists_cons_of_ne_nil (Nat.toDigits_ne_nil (n := n) (b := 10))
    have hd : d.isDigit = true := all_toDigits n d (by rw [hds]; exact List.mem_cons_self)
    have hminus : d ≠ '-' := by
      rintro rfl
      cases hd
    have hunsigned := unsignedNumber_toDigits hr false n
    rw [hds] at hunsigned ⊢
    exact (number_cons hminus _).trans hunsigned

/-- A double is what the reader of numbers makes of its own text. -/
def ReadsBack (x : Double) : Prop :=
  number (doubleText x).toList = some (.real x, [])

/-- So is a double whose text is read back. -/
theorem ReadsBack.number {x : Double} (h : ReadsBack x) (hr : EndsNumber r) :
    number ((doubleText x).toList ++ r) = some (.real x, r) :=
  number_append hr h

end

end GoLua.Json
