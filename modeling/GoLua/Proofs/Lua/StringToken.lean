import GoLua.Lua.Literal
import GoLua.Proofs.Lua.Reader
import Mathlib.Tactic.SplitIfs

/-!
# Reading string literals

`stringToken?` reads a short string of Lua at the start of a text: it gives the bytes of the value and
the text behind the closing quote. A character that is not escaped stands for its bytes in UTF-8. All
escapes of the language are known, not only those that are emitted, so what is read of an emitted literal
does not depend on how it was written.

* Each byte of a literal is written in one of three ways (`isByteSpelling_quoteByte`): as itself, as a
  backslash with a letter, or as a backslash with three digits. Whatever follows, the reader takes exactly
  these characters and gets the byte back (`stringRest_quoteByte`). An escape with fewer digits would
  swallow a digit behind it.
* So a literal is read back before any rest (`stringToken?_quoteBytes`).
* What has been read stays so if more text follows (`stringToken?_append`), and therefore no part of a
  literal is one by itself.
-/

namespace GoLua.Lua

/-! ### Escapes -/

/-- The byte that a single character behind a backslash stands for. -/
def letterEscape? : Char → Option UInt8
  | 'a' => some 7
  | 'b' => some 8
  | 't' => some 9
  | 'n' => some 10
  | 'v' => some 11
  | 'f' => some 12
  | 'r' => some 13
  | '"' => some 34
  | '\'' => some 39
  | '\\' => some 92
  | _ => none

/-- The bytes of a code point, which may also be a surrogate. -/
def codePointBytes (n : Nat) : List UInt8 :=
  if n < 0x80 then [.ofNat n]
  else if n < 0x800 then [.ofNat (0xC0 + n / 0x40), .ofNat (0x80 + n % 0x40)]
  else if n < 0x10000 then
    [.ofNat (0xE0 + n / 0x1000), .ofNat (0x80 + n / 0x40 % 0x40), .ofNat (0x80 + n % 0x40)]
  else
    [.ofNat (0xF0 + n / 0x40000), .ofNat (0x80 + n / 0x1000 % 0x40), .ofNat (0x80 + n / 0x40 % 0x40),
      .ofNat (0x80 + n % 0x40)]

/-- White space within a line and between lines. -/
def isSpace (c : Char) : Bool :=
  c == ' ' || ('\t' ≤ c && c ≤ '\r')

/-- One to three decimal digits that make a byte; more digits are text again. -/
def decimalEscape? (cs : List Char) : Option (List UInt8 × List Char) :=
  let digits := (cs.take 3).takeWhile Char.isDigit
  if digits ≠ [] ∧ digitsValue 10 digits ≤ 255 then
    some ([.ofNat (digitsValue 10 digits)], cs.drop digits.length)
  else none

/-- Two hexadecimal digits. -/
def hexEscape? : List Char → Option (List UInt8 × List Char)
  | c :: d :: cs =>
    if isHexDigit c && isHexDigit d then some ([.ofNat (digitsValue 16 [c, d])], cs) else none
  | _ => none

/-- The hexadecimal digits of a code point between braces. -/
def codePointEscape? (cs : List Char) : Option (List UInt8 × List Char) :=
  match cs with
  | '\x7b' :: cs =>
    let digits := cs.takeWhile isHexDigit
    match cs.dropWhile isHexDigit with
    | '\x7d' :: rest =>
      if digits ≠ [] ∧ digitsValue 16 digits ≤ 0x10FFFF then
        some (codePointBytes (digitsValue 16 digits), rest)
      else none
    | _ => none
  | _ => none

/-- The line break behind the first character of one, which may have two different ones. -/
def skipLineBreak (first : Char) : List Char → List Char
  | c :: cs => if (c == '\n' || c == '\r') && c != first then cs else c :: cs
  | [] => []

/-- What a backslash stands for in front of a text, and the text that is left. -/
def escape? : List Char → Option (List UInt8 × List Char)
  | [] => none
  | c :: cs =>
    if c.isDigit then decimalEscape? (c :: cs)
    else if c == 'x' then hexEscape? cs
    else if c == 'u' then codePointEscape? cs
    else if c == 'z' then some ([], cs.dropWhile isSpace)
    else if c == '\n' || c == '\r' then some ([10], skipLineBreak c cs)
    else (letterEscape? c).map fun b => ([b], cs)

section

variable {cs rest : List Char} {bytes : List UInt8}

/-- A decimal escape leaves what stands behind its digits. -/
theorem suffix_of_decimalEscape? (h : decimalEscape? cs = some (bytes, rest)) : rest <:+ cs := by
  unfold decimalEscape? at h
  dsimp only at h
  split at h
  · obtain ⟨-, rfl⟩ := Prod.mk.inj (Option.some.inj h)
    exact List.drop_suffix _ _
  · cases h

/-- A hexadecimal one leaves what stands behind its two digits. -/
theorem suffix_of_hexEscape? (h : hexEscape? cs = some (bytes, rest)) : rest <:+ cs := by
  unfold hexEscape? at h
  split at h
  · next c d cs =>
    split at h
    · obtain ⟨-, rfl⟩ := Prod.mk.inj (Option.some.inj h)
      exact List.suffix_append [c, d] cs
    · cases h
  · cases h

/-- And that of a code point what stands behind its brace. -/
theorem suffix_of_codePointEscape? (h : codePointEscape? cs = some (bytes, rest)) : rest <:+ cs := by
  unfold codePointEscape? at h
  split at h
  · next cs =>
    dsimp only at h
    split at h
    · next tail htail =>
      split at h
      · obtain ⟨-, rfl⟩ := Prod.mk.inj (Option.some.inj h)
        have hsuffix : '\x7d' :: tail <:+ cs := htail ▸ List.dropWhile_suffix isHexDigit
        exact ((List.suffix_cons _ tail).trans hsuffix).trans (List.suffix_cons _ cs)
      · cases h
    · cases h
  · cases h

/-- A line break is skipped whether it is one character or two. -/
theorem skipLineBreak_suffix (first : Char) (cs : List Char) : skipLineBreak first cs <:+ cs := by
  unfold skipLineBreak
  split
  · split
    · exact List.suffix_cons _ _
    · exact List.suffix_rfl
  · exact List.suffix_rfl

/-- Behind an escape there is a part of the text that it is read from. -/
theorem suffix_of_escape? (h : escape? cs = some (bytes, rest)) : rest <:+ cs := by
  unfold escape? at h
  split at h
  · cases h
  next c cs =>
  have hcons : cs <:+ c :: cs := List.suffix_cons c cs
  -- One case for each kind of escape; all of them read forward.
  split_ifs at h
  · exact suffix_of_decimalEscape? h
  · exact (suffix_of_hexEscape? h).trans hcons
  · exact (suffix_of_codePointEscape? h).trans hcons
  · obtain ⟨-, rfl⟩ := Prod.mk.inj (Option.some.inj h)
    exact (List.dropWhile_suffix isSpace).trans hcons
  · obtain ⟨-, rfl⟩ := Prod.mk.inj (Option.some.inj h)
    exact (skipLineBreak_suffix c cs).trans hcons
  · obtain ⟨b, -, hb⟩ := Option.map_eq_some_iff.mp h
    obtain ⟨-, rfl⟩ := Prod.mk.inj hb
    exact hcons

end

/-! ### Strings -/

/-- The bytes up to a closing quote, and the text behind it. A line break ends the line without ending
the string, which is an error. -/
def stringRest (delimiter : Char) : List Char → Option (List UInt8 × List Char)
  | [] => none
  | c :: cs =>
    if c = delimiter then some ([], cs)
    else if c = '\n' ∨ c = '\r' then none
    else if c = '\\' then
      match h : escape? cs with
      | none => none
      | some (bytes, rest) =>
        have := (suffix_of_escape? h).length_le
        (stringRest delimiter rest).map (Prod.map (bytes ++ ·) id)
    else (stringRest delimiter cs).map (Prod.map (String.utf8EncodeChar c ++ ·) id)
termination_by cs => cs.length

/-- **Reading a string.** The value of the short string that a text begins with, and the rest of the
text. -/
def stringToken? : List Char → Option (List UInt8 × List Char)
  | c :: cs => if c = '"' ∨ c = '\'' then stringRest c cs else none
  | [] => none

example : stringToken? "\"a\\65\\z  \\u\x7be9\x7d\\x0a\" .. s".toList =
    some ([97, 65, 195, 169, 10], " .. s".toList) := by
  cbv

/-! ### Bytes of a literal -/

/-- A character that stands for itself between double quotes. -/
def isPlain (c : Char) : Bool :=
  c != '"' && c != '\\' && c != '\n' && c != '\r'

/-- The spellings of a byte that are read as it whatever follows. -/
def isByteSpelling (b : UInt8) : List Char → Bool
  | [c] => isPlain c && String.utf8EncodeChar c == [b]
  | ['\\', c] => letterEscape? c == some b
  | ['\\', c, d, e] => [c, d, e].all Char.isDigit && digitsValue 10 [c, d, e] == b.toNat
  | _ => false

theorem isByteSpelling_quoteByte (b : UInt8) : isByteSpelling b (quoteByte b).toList := by
  have hall : ∀ n < 256, isByteSpelling (.ofNat n) (byteChars n) := by decide +kernel
  have hb := quoteByte_of_forall (p := fun n cs => isByteSpelling (.ofNat n) cs) hall b
  rwa [UInt8.ofNat_toNat] at hb

/-- A letter behind a backslash is no digit, and no escape of another form. -/
theorem escape?_of_letterEscape? {c : Char} {b : UInt8} (h : letterEscape? c = some b)
    (rest : List Char) : escape? (c :: rest) = some ([b], rest) := by
  unfold letterEscape? at h
  split at h
  all_goals first
    | obtain rfl := Option.some.inj h; rfl
    | cases h

/-- Three digits are all that a decimal escape takes. -/
theorem escape?_of_digits {b : UInt8} {c d e : Char} (hdigits : [c, d, e].all Char.isDigit)
    (hvalue : digitsValue 10 [c, d, e] = b.toNat) (rest : List Char) :
    escape? (c :: d :: e :: rest) = some ([b], rest) := by
  have htake : ((c :: d :: e :: rest).take 3).takeWhile Char.isDigit = [c, d, e] := by
    simp_all
  have hc : c.isDigit := List.all_eq_true.mp hdigits c List.mem_cons_self
  have hle : digitsValue 10 [c, d, e] ≤ 255 := hvalue ▸ Nat.le_of_lt_succ b.toNat_lt
  rw [escape?, if_pos hc, decimalEscape?, htake, if_pos ⟨List.cons_ne_nil _ _, hle⟩, hvalue,
    UInt8.ofNat_toNat]
  rfl

/-- A string goes on behind an escape. -/
theorem stringRest_escape {delimiter : Char} {cs rest : List Char} {bytes : List UInt8}
    (hdelimiter : delimiter ≠ '\\') (h : escape? cs = some (bytes, rest)) :
    stringRest delimiter ('\\' :: cs) =
      (stringRest delimiter rest).map (Prod.map (bytes ++ ·) id) := by
  rw [stringRest, if_neg hdelimiter.symm, if_neg (by decide), if_pos rfl]
  split
  · next hnone => rw [h] at hnone; cases hnone
  · next found more hfound =>
    rw [h] at hfound
    obtain ⟨rfl, rfl⟩ := Prod.mk.inj (Option.some.inj hfound)
    rfl

/-- **One byte.** Its spelling is read as it, whatever follows. -/
theorem stringRest_quoteByte (b : UInt8) (rest : List Char) :
    stringRest '"' ((quoteByte b).toList ++ rest) =
      (stringRest '"' rest).map (Prod.map (b :: ·) id) := by
  have hspelling := isByteSpelling_quoteByte b
  unfold isByteSpelling at hspelling
  -- A byte is spelled by itself, by a letter behind a backslash, or by three digits.
  split at hspelling
  · next c hc =>
    simp only [isPlain, Bool.and_eq_true, bne_iff_ne, beq_iff_eq] at hspelling
    obtain ⟨⟨⟨⟨hquote, hbackslash⟩, hfeed⟩, hreturn⟩, hbytes⟩ := hspelling
    rw [hc, List.singleton_append, stringRest, if_neg hquote,
      if_neg (not_or.mpr ⟨hfeed, hreturn⟩), if_neg hbackslash, hbytes]
    rfl
  · next c hc =>
    rw [hc]
    exact stringRest_escape (by decide) (escape?_of_letterEscape? (beq_iff_eq.mp hspelling) rest)
  · next c d e hc =>
    obtain ⟨hdigits, hvalue⟩ := Bool.and_eq_true_iff.mp hspelling
    rw [hc]
    exact stringRest_escape (by decide) (escape?_of_digits hdigits (beq_iff_eq.mp hvalue) rest)
  · cases hspelling

/-- **Reading back.** A literal is read as its bytes, and nothing of what follows is taken. -/
theorem stringToken?_quoteBytes (bytes : List UInt8) (rest : List Char) :
    stringToken? ((quoteBytes bytes).toList ++ rest) = some (bytes, rest) := by
  have hbytes : stringRest '"' ((String.join (bytes.map quoteByte)).toList ++ '"' :: rest) =
      some (bytes, rest) := by
    -- By induction on the bytes.
    induction bytes with
    | nil =>
      change stringRest '"' ('"' :: rest) = _
      rw [stringRest, if_pos rfl]
    | cons b bytes ih =>
      rw [List.map_cons, String.join_cons, String.toList_append, List.append_assoc,
        stringRest_quoteByte, ih]
      rfl
  rw [quoteBytes, String.toList_append, String.toList_append, List.append_assoc]
  exact hbytes

/-! ### Text behind a literal -/

theorem takeWhile_append_of_dropWhile {α : Type} {p : α → Bool} {as : List α}
    (h : as.dropWhile p ≠ []) (bs : List α) :
    (as ++ bs).takeWhile p = as.takeWhile p ∧ (as ++ bs).dropWhile p = as.dropWhile p ++ bs := by
  induction as with
  | nil => exact absurd rfl h
  | cons a as ih =>
    by_cases ha : p a
    · rw [List.dropWhile_cons_of_pos ha] at h
      obtain ⟨htake, hdrop⟩ := ih h
      simp [ha, htake, hdrop]
    · simp [ha]

section

variable {cs rest : List Char} {bytes : List UInt8} (hne : rest ≠ []) (more : List Char)
include hne

/-- Where a character stands behind a decimal escape, more text does not change it. -/
theorem decimalEscape?_append (h : decimalEscape? cs = some (bytes, rest)) :
    decimalEscape? (cs ++ more) = some (bytes, rest ++ more) := by
  unfold decimalEscape? at h ⊢
  dsimp only at h ⊢
  split at h
  · next hvalue =>
    obtain ⟨hbytes, hrest⟩ := Prod.mk.inj (Option.some.inj h)
    have hlt : ((cs.take 3).takeWhile Char.isDigit).length < cs.length := by
      rw [← hrest] at hne
      exact Nat.lt_of_not_le fun hle => hne (List.drop_eq_nil_of_le hle)
    -- The digits end at the third one or before the text does.
    have hdigits : ((cs ++ more).take 3).takeWhile Char.isDigit =
        (cs.take 3).takeWhile Char.isDigit := by
      rw [List.take_append, List.takeWhile_append]
      split
      · next hall =>
        have hsame := (List.takeWhile_prefix Char.isDigit).eq_of_length hall
        rw [hall, List.length_take] at hlt
        have hnone : 3 - cs.length = 0 := by omega
        rw [hnone, List.take_zero, List.takeWhile_nil, List.append_nil, hsame]
      · rfl
    rw [hdigits, if_pos hvalue, hbytes, List.drop_append_of_le_length (Nat.le_of_lt hlt), hrest]
  · cases h

/-- Nor does it change a hexadecimal escape. -/
theorem hexEscape?_append (h : hexEscape? cs = some (bytes, rest)) :
    hexEscape? (cs ++ more) = some (bytes, rest ++ more) := by
  unfold hexEscape? at h
  split at h
  · split at h
    · next hdigits =>
      obtain ⟨rfl, rfl⟩ := Prod.mk.inj (Option.some.inj h)
      exact if_pos hdigits
    · cases h
  · cases h

/-- Nor that of a code point, which ends with its brace. -/
theorem codePointEscape?_append (h : codePointEscape? cs = some (bytes, rest)) :
    codePointEscape? (cs ++ more) = some (bytes, rest ++ more) := by
  unfold codePointEscape? at h
  split at h
  · next cs =>
    dsimp only at h
    split at h
    · next tail htail =>
      split at h
      · next hvalue =>
        obtain ⟨rfl, rfl⟩ := Prod.mk.inj (Option.some.inj h)
        have hends : cs.dropWhile isHexDigit ≠ [] := htail ▸ List.cons_ne_nil _ _
        obtain ⟨htake, hdrop⟩ := takeWhile_append_of_dropWhile hends more
        simp only [List.cons_append, codePointEscape?, htake, hdrop, htail, if_pos hvalue]
      · cases h
    · cases h
  · cases h

/-- An escape that is not the last thing in a text is the same in a longer one. -/
theorem escape?_append (h : escape? cs = some (bytes, rest)) :
    escape? (cs ++ more) = some (bytes, rest ++ more) := by
  unfold escape? at h ⊢
  split at h
  · cases h
  next c cs =>
  rw [List.cons_append]
  dsimp only at h ⊢
  -- The escapes that could take more of the text end before its end.
  split_ifs at h ⊢
  · exact decimalEscape?_append hne more h
  · exact hexEscape?_append hne more h
  · exact codePointEscape?_append hne more h
  · obtain ⟨rfl, rfl⟩ := Prod.mk.inj (Option.some.inj h)
    rw [(takeWhile_append_of_dropWhile hne more).2]
  · obtain ⟨rfl, rfl⟩ := Prod.mk.inj (Option.some.inj h)
    cases cs with
    | nil => exact absurd rfl hne
    | cons d cs =>
      simp only [skipLineBreak, List.cons_append]
      split <;> rfl
  · obtain ⟨b, hb, hpair⟩ := Option.map_eq_some_iff.mp h
    obtain ⟨rfl, rfl⟩ := Prod.mk.inj hpair
    rw [hb]
    rfl

end

/-- What has been read up to the closing quote is the same in a longer text. -/
theorem stringRest_append {delimiter : Char} {cs rest : List Char} {bytes : List UInt8}
    (h : stringRest delimiter cs = some (bytes, rest)) (more : List Char) :
    stringRest delimiter (cs ++ more) = some (bytes, rest ++ more) := by
  fun_induction stringRest delimiter cs generalizing bytes with
  | case1 => cases h
  | case2 cs =>
    obtain ⟨rfl, rfl⟩ := Prod.mk.inj (Option.some.inj h)
    rw [List.cons_append, stringRest, if_pos rfl]
  | case3 => cases h
  | case4 => cases h
  | case5 cs taken left hescape _ hquote hbreak ih =>
    obtain ⟨⟨later, rest'⟩, hlater, hpair⟩ := Option.map_eq_some_iff.mp h
    obtain ⟨rfl, rfl⟩ := Prod.mk.inj hpair
    -- The string goes on behind the escape, so there is text left.
    have hne : left ≠ [] := by
      rintro rfl
      rw [stringRest] at hlater
      cases hlater
    rw [List.cons_append,
      stringRest_escape (Ne.symm hquote) (escape?_append hne more hescape), ih hlater]
    rfl
  | case6 c cs hquote hbreak hbackslash ih =>
    obtain ⟨⟨later, rest'⟩, hlater, hpair⟩ := Option.map_eq_some_iff.mp h
    obtain ⟨rfl, rfl⟩ := Prod.mk.inj hpair
    rw [List.cons_append, stringRest, if_neg hquote, if_neg hbreak, if_neg hbackslash, ih hlater]
    rfl

/-- A token stays one if more text follows. -/
theorem stringToken?_append {cs rest : List Char} {bytes : List UInt8}
    (h : stringToken? cs = some (bytes, rest)) (more : List Char) :
    stringToken? (cs ++ more) = some (bytes, rest ++ more) := by
  unfold stringToken? at h
  split at h
  · split at h
    · next hquote =>
      rw [List.cons_append, stringToken?, if_pos hquote]
      exact stringRest_append h more
    · cases h
  · cases h

/-! ### Literals -/

/-- Every character of a literal can be seen, and is one byte of the text. -/
theorem printable_of_mem_quoteBytes {bytes : List UInt8} {c : Char}
    (h : c ∈ (quoteBytes bytes).toList) : ' ' ≤ c ∧ c ≤ '~' := by
  have hbyte : ∀ n < 256, (byteChars n).all fun c => ' ' ≤ c && c ≤ '~' := by decide +kernel
  rw [quoteBytes, String.toList_append, String.toList_append, String.toList_join] at h
  simp only [List.mem_append, List.mem_flatMap, List.mem_map] at h
  rcases h with (hopen | ⟨spelling, ⟨b, hb, rfl⟩, hc⟩) | hclose
  · obtain rfl := List.mem_singleton.mp hopen
    decide
  · have hall := quoteByte_of_forall (p := fun _ cs => cs.all fun c => ' ' ≤ c && c ≤ '~') hbyte b
    simpa using List.all_eq_true.mp hall c hc
  · obtain rfl := List.mem_singleton.mp hclose
    decide

/-- The literal ends where the reader says, so no part of it is a literal. -/
theorem stringToken?_eq_none_of_part {bytes : List UInt8} {part missing : List Char}
    (h : (quoteBytes bytes).toList = part ++ missing) (hmissing : missing ≠ []) :
    stringToken? part = none := by
  rcases hpart : stringToken? part with _ | ⟨early, rest⟩
  · rfl
  -- The part would be read in the whole literal too, and leave what is missing.
  have hwhole := stringToken?_quoteBytes bytes []
  rw [List.append_nil, h, stringToken?_append hpart missing] at hwhole
  have hrest := (Prod.mk.inj (Option.some.inj hwhole)).2
  exact absurd (List.append_eq_nil_iff.mp hrest).2 hmissing

/-- Different byte sequences have different literals. -/
theorem quoteBytes_injective : Function.Injective quoteBytes := by
  intro bytes bytes' h
  have hread := stringToken?_quoteBytes bytes []
  rw [h, stringToken?_quoteBytes] at hread
  exact (Prod.mk.inj (Option.some.inj hread)).1.symm

/-- Two texts are quoted differently. -/
theorem quote_injective : Function.Injective quote := by
  intro s t h
  have hbytes : s.toUTF8 = t.toUTF8 := ByteArray.ext (Array.toList_inj.mp (quoteBytes_injective h))
  exact String.toByteArray_inj.mp hbytes

/-- Texts that start with literals and are the same start with the same literal. -/
theorem quote_append_inj {s t x y : String} (h : quote s ++ x = quote t ++ y) : s = t ∧ x = y := by
  have hread : stringToken? ((quote s).toList ++ x.toList) = some (s.toUTF8.data.toList, x.toList) :=
    stringToken?_quoteBytes _ _
  rw [← String.toList_append, h, String.toList_append] at hread
  have hpair := Option.some.inj ((stringToken?_quoteBytes _ _).symm.trans hread)
  obtain rfl : y = x := String.toList_inj.mp (congrArg Prod.snd hpair)
  exact ⟨quote_injective ((String.append_left_inj y).mp h), rfl⟩

/-- **String literals.** Before any text, the literal of a sequence of bytes is read as a string with
these bytes, to its last character and no further; no part of it is a string by itself, and nothing in it
is hidden. So different texts have different literals. -/
theorem literals_readBack :
    (∀ (bytes : List UInt8) (rest : List Char),
      stringToken? ((quoteBytes bytes).toList ++ rest) = some (bytes, rest)) ∧
    (∀ (bytes : List UInt8) (part missing : List Char),
      (quoteBytes bytes).toList = part ++ missing → missing ≠ [] → stringToken? part = none) ∧
    (∀ (bytes : List UInt8), ∀ c ∈ (quoteBytes bytes).toList, ' ' ≤ c ∧ c ≤ '~') ∧
    Function.Injective quote :=
  ⟨stringToken?_quoteBytes, fun _ _ _ => stringToken?_eq_none_of_part,
    fun _ _ => printable_of_mem_quoteBytes, quote_injective⟩

/-- A zero and a digit in front of another literal: neither the digit nor the second quote is taken. -/
theorem literals_readBack_zeroDigit :
    stringToken? "\"\\0001\"\"0\"".toList = some ([0, 49], "\"0\"".toList) ∧
      stringToken? "\"\\0001".toList = none :=
  ⟨literals_readBack.1 [0, 49] "\"0\"".toList,
    literals_readBack.2.1 [0, 49] "\"\\0001".toList ['"'] (by decide) (by decide)⟩

end GoLua.Lua
