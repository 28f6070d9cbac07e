import GoLua.Proofs.Template.Grammar
import Mathlib.Data.List.TakeWhile

/-!
# Patterns as bytes

In memory a pattern is its UTF-8 form. It can be parsed byte by byte, without a look at the characters
that the bytes make up: the percent sign, the digits and the letters of the tags are single bytes, and
no byte of any other character looks like one of them. `scanBytes` does so. It keeps three cursors, the
offset that it reads at, the offset where the literal before it starts, and the running operand, and it
cuts the literals and the numbers out of the pattern by their offsets. There is nothing between two
offsets if one of them is inside of a character, and then the scan breaks off.

It never does: on every text, faulty or not, it comes to what `parse` comes to (`scanBytes_eq_parse`).
-/

namespace GoLua.Template

/-! ### Scanning -/

/-- The text between two offsets; none if one of them is inside of a character, or they are out of
order. -/
def slice? (text : String) (start stop : Nat) : Option String :=
  if h : (⟨start⟩ : String.Pos.Raw).IsValid text ∧ (⟨stop⟩ : String.Pos.Raw).IsValid text ∧
      start ≤ stop then
    some (text.extract ⟨⟨start⟩, h.1⟩ ⟨⟨stop⟩, h.2.1⟩)
  else none

/-- A scan comes to a result or to a fault, or breaks off where it would cut a character. -/
abbrev Scan := ExceptT TemplateFault Option

/-- The characters between two offsets; nothing is cut out where they meet. -/
def Scan.cut (text : String) (start stop : Nat) : Scan (List Char) := do
  if start < stop then return (← slice? text start stop).toList else return []

/-- The literal of a text, if there is any text. -/
def literalOf : List Char → List Piece
  | [] => []
  | text => [.literal text]

def isDigitByte (byte : UInt8) : Bool :=
  0x30 ≤ byte && byte ≤ 0x39

/-- The cursors of a scan. -/
structure Cursors where
  /-- The offset of the next byte. -/
  position : Nat := 0
  /-- The offset behind the last percent sign with what belongs to it. -/
  literalStart : Nat := 0
  /-- The operand of a placeholder without a number. -/
  running : Nat := 0

/-- The pieces from the cursors on, whose bytes are given. -/
def scanFrom (count : Nat) (text : String) (c : Cursors) : List UInt8 → Scan (List Piece)
  | [] => return literalOf (← Scan.cut text c.literalStart c.position)
  | byte :: bytes =>
    if byte = 0x25 then do
      let before ← Scan.cut text c.literalStart c.position
      let start := c.position + 1
      let stop := start + (bytes.takeWhile isDigitByte).length
      let digits ← Scan.cut text start stop
      let numbered ← MonadExcept.ofExcept (numberedOperand digits)
      match _h : bytes.dropWhile isDigitByte with
      | [] => throw .missingTag
      | tag :: rest =>
        let next : Cursors := ⟨stop + 1, stop + 1, c.running⟩
        if tag = 0x25 ∧ numbered = none then
          return literalOf before ++ .percent :: (← scanFrom count text next rest)
        else
          match Tag.ofLetter? (Char.ofNat tag.toNat) with
          | none => throw (.unknownTag (Char.ofNat tag.toNat))
          | some letter =>
            let index := numbered.getD c.running
            if count ≤ index then throw (.operandMissing index count)
            else
              return literalOf before ++ .placeholder digits index letter ::
                (← scanFrom count text { next with running := index + 1 } rest)
    else scanFrom count text { c with position := c.position + 1 } bytes
termination_by bytes => bytes.length
decreasing_by
  all_goals
    simp only [List.length_cons]
    try have hrest := List.length_dropWhile_le isDigitByte bytes
    try rw [_h, List.length_cons] at hrest
    omega

/-- The pieces of a pattern with `count` operands. -/
def scanBytes (count : Nat) (pattern : String) : Scan (List Piece) :=
  scanFrom count pattern {} pattern.toByteArray.data.toList

/-! ### The bytes of a character -/

/-- The bytes of a text. -/
def utf8 (cs : List Char) : List UInt8 :=
  cs.flatMap String.utf8EncodeChar

@[simp] theorem utf8_nil : utf8 [] = [] := rfl

/-- A text is its characters, encoded one by one. -/
theorem utf8_cons (c : Char) (cs : List Char) : utf8 (c :: cs) = String.utf8EncodeChar c ++ utf8 cs :=
  rfl

theorem utf8_append (cs ds : List Char) : utf8 (cs ++ ds) = utf8 cs ++ utf8 ds :=
  List.flatMap_append

theorem toList_toByteArray_ofList (cs : List Char) :
    (String.ofList cs).toByteArray.data.toList = utf8 cs :=
  List.toList_data_toByteArray

/-- The first byte of a character. -/
def firstByte (c : Char) : UInt8 :=
  UInt8.ofNat (leadByte c).toNat

/-- A byte is the number of a character of its own. -/
theorem toNat_ofNat_of_lt {n : Nat} (h : n < 0x100) : (Char.ofNat n).toNat = n := by
  have hvalid : n.isValidChar := .inl (Nat.lt_trans h (by decide))
  rw [Char.ofNat, dif_pos hvalid]
  exact UInt32.toNat_ofNatLT

/-- A character is a number of at most 21 bits. -/
theorem toNat_lt (c : Char) : c.toNat < 0x110000 := by
  rcases c.valid with h | ⟨-, h⟩
  · exact Nat.lt_trans h (by decide)
  · exact h

/-- The number of the lead byte, by the length of the encoding. -/
theorem toNat_leadByte (c : Char) :
    (leadByte c).toNat =
      if c.toNat < 0x80 then c.toNat
      else if c.toNat < 0x800 then 0xC0 + c.toNat / 0x40
      else if c.toNat < 0x10000 then 0xE0 + c.toNat / 0x1000
      else 0xF0 + c.toNat / 0x40000 := by
  have hc := toNat_lt c
  unfold leadByte
  dsimp only
  split
  · rfl
  split
  · exact toNat_ofNat_of_lt (by omega)
  split
  · exact toNat_ofNat_of_lt (by omega)
  · exact toNat_ofNat_of_lt (by omega)

/-- The lead byte is one byte. -/
theorem toNat_firstByte (c : Char) : (firstByte c).toNat = (leadByte c).toNat := by
  have hc := toNat_lt c
  refine UInt8.toNat_ofNat_of_lt' ?_
  rw [toNat_leadByte]
  show _ < 256
  split
  · omega
  split
  · omega
  split <;> omega

/-- A character outside of ASCII has no byte that looks like an ASCII character. -/
theorem utf8EncodeChar_eq (c : Char) :
    ∃ bytes, String.utf8EncodeChar c = firstByte c :: bytes ∧ (c.toNat < 0x80 → bytes = []) ∧
      ∀ byte ∈ bytes, 0x80 ≤ byte.toNat := by
  have hc := toNat_lt c
  have hval : c.val.toNat = c.toNat := rfl
  have hfirst {n : Nat} (h : (leadByte c).toNat = n) : UInt8.ofNat n = firstByte c := by
    rw [firstByte, h]
  rw [toNat_leadByte] at hfirst
  unfold String.utf8EncodeChar
  dsimp only
  rw [hval]
  split
  -- One case for each length of the encoding; in each of them the bytes behind the first are not
  -- below `0x80`.
  · next h => exact ⟨[], by rw [hfirst (if_pos (by omega))], by simp, by simp⟩
  next h₁ =>
  split
  · next h =>
    refine ⟨_, congrArg (· :: _) (hfirst ?_), by omega, by simp; omega⟩
    rw [if_neg (by omega), if_pos (by omega)]
    omega
  next h₂ =>
  split
  · next h =>
    refine ⟨_, congrArg (· :: _) (hfirst ?_), by omega, by simp; omega⟩
    rw [if_neg (by omega), if_neg (by omega), if_pos (by omega)]
    omega
  · refine ⟨_, congrArg (· :: _) (hfirst ?_), by omega, by simp; omega⟩
    rw [if_neg (by omega), if_neg (by omega), if_neg (by omega)]
    omega

/-- What the scanner shows of a character is its lead byte. -/
theorem ofNat_firstByte (c : Char) : Char.ofNat (firstByte c).toNat = leadByte c := by
  rw [toNat_firstByte, Char.ofNat_toNat]

/-- A character of one byte is its own lead byte. -/
theorem leadByte_of_lt {c : Char} (h : c.toNat < 0x80) : leadByte c = c :=
  if_pos h

/-- A character and its first byte are both outside of ASCII, or are the same. -/
theorem eq_leadByte_or (c : Char) : leadByte c = c ∨ 0x80 ≤ (leadByte c).toNat ∧ 0x80 ≤ c.toNat := by
  by_cases h : c.toNat < 0x80
  · exact .inl (leadByte_of_lt h)
  · refine .inr ⟨?_, Nat.le_of_not_lt h⟩
    rw [toNat_leadByte, if_neg h]
    split
    · omega
    split <;> omega

/-- Only the percent sign starts with its byte. -/
theorem firstByte_eq_percent_iff (c : Char) : firstByte c = 0x25 ↔ c = '%' := by
  rw [← UInt8.toNat_inj, toNat_firstByte, ← Char.toNat_inj]
  change (leadByte c).toNat = 37 ↔ c.toNat = 37
  rcases eq_leadByte_or c with h | h
  · rw [h]
  · omega

/-- Only the digits start with the byte of a digit. -/
theorem isDigitByte_firstByte (c : Char) : isDigitByte (firstByte c) = c.isDigit := by
  rw [Bool.eq_iff_iff, Char.isDigit_iff_toNat, isDigitByte, Bool.and_eq_true, decide_eq_true_eq,
    decide_eq_true_eq, UInt8.le_iff_toNat_le, UInt8.le_iff_toNat_le, toNat_firstByte]
  change 48 ≤ (leadByte c).toNat ∧ (leadByte c).toNat ≤ 57 ↔ 48 ≤ c.toNat ∧ c.toNat ≤ 57
  rcases eq_leadByte_or c with h | h
  · rw [h]
  · omega

/-- The letters of tags are ASCII. -/
theorem ofLetter?_leadByte (c : Char) : Tag.ofLetter? (leadByte c) = Tag.ofLetter? c := by
  have hnone {c : Char} (h : 0x80 ≤ c.toNat) : Tag.ofLetter? c = none := by
    rw [Option.eq_none_iff_forall_not_mem]
    intro tag htag
    obtain rfl := letter_of_ofLetter? htag
    cases tag <;> exact absurd h (by decide)
  rcases eq_leadByte_or c with h | ⟨hlead, hc⟩
  · rw [h]
  · rw [hnone hlead, hnone hc]

/-! ### Cutting -/

/-- What is before a character and what is behind it can be told by the offset. -/
theorem isValid_utf8 (pre post : List Char) :
    (⟨(utf8 pre).length⟩ : String.Pos.Raw).IsValid (String.ofList (pre ++ post)) := by
  rw [String.Pos.Raw.isValid_iff_exists_append]
  refine ⟨String.ofList pre, String.ofList post, String.ofList_append, ?_⟩
  rw [← toList_toByteArray_ofList]
  rfl

/-- Between the ends of two parts of a text is what the second one adds. -/
theorem slice?_utf8 (pre mid post : List Char) :
    slice? (String.ofList (pre ++ mid ++ post)) (utf8 pre).length (utf8 (pre ++ mid)).length =
      some (String.ofList mid) := by
  have hstart := isValid_utf8 pre (mid ++ post)
  rw [← List.append_assoc] at hstart
  have hle : (utf8 pre).length ≤ (utf8 (pre ++ mid)).length := by
    rw [utf8_append, List.length_append]
    exact Nat.le_add_right _ _
  rw [slice?, dif_pos ⟨hstart, isValid_utf8 (pre ++ mid) post, hle⟩]
  refine congrArg some (String.toByteArray_inj.mp (ByteArray.ext (Array.toList_inj.mp ?_)))
  rw [String.toByteArray_extract, ByteArray.data_extract, Array.toList_extract,
    toList_toByteArray_ofList, toList_toByteArray_ofList]
  change (utf8 (pre ++ mid ++ post)).extract (utf8 pre).length (utf8 (pre ++ mid)).length = utf8 mid
  rw [utf8_append, utf8_append, List.extract, List.append_assoc, List.drop_left, List.length_append,
    Nat.add_sub_cancel_left, List.take_left]

/-- A text with another character in it is longer. -/
theorem length_utf8_lt (pre : List Char) (c : Char) (cs : List Char) :
    (utf8 pre).length < (utf8 (pre ++ c :: cs)).length := by
  obtain ⟨bytes, hbytes, -, -⟩ := utf8EncodeChar_eq c
  rw [utf8_append, utf8_cons, hbytes, List.length_append, List.cons_append, List.length_cons]
  omega

/-- A part of the text is cut out by its offsets. -/
theorem cut_utf8 (pre mid post : List Char) :
    Scan.cut (String.ofList (pre ++ mid ++ post)) (utf8 pre).length (utf8 (pre ++ mid)).length =
      pure mid := by
  cases mid with
  | nil => rw [Scan.cut, if_neg (by rw [List.append_nil]; exact Nat.lt_irrefl _)]
  | cons c mid =>
    rw [Scan.cut, if_pos (length_utf8_lt pre c mid), slice?_utf8]
    exact congrArg (pure : List Char → Scan (List Char)) String.toList_ofList

/-! ### Scanning and parsing -/

section

variable {count running : Nat} {text : String} {pre lit cs : List Char}

/-- Characters that are not followed by a literal make one. -/
theorem foldr_consChar_of_ne {ps : List Piece} (h : ∀ text rest, ps ≠ .literal text :: rest) :
    lit.foldr consChar ps = literalOf lit ++ ps := by
  induction lit with
  | nil => rfl
  | cons c lit ih =>
    rw [List.foldr_cons, ih]
    cases lit with
    | nil =>
      match ps, h with
      | [], _ => rfl
      | .percent :: _, _ => rfl
      | .placeholder _ _ _ :: _, _ => rfl
      | .literal text :: rest, h => exact absurd rfl (h text rest)
    | cons d lit => rfl

/-- The scan passes over bytes that are no percent signs. -/
theorem scanFrom_inert {bytes : List UInt8} (h : ∀ byte ∈ bytes, byte ≠ 0x25) (c : Cursors)
    (rest : List UInt8) :
    scanFrom count text c (bytes ++ rest) =
      scanFrom count text { c with position := c.position + bytes.length } rest := by
  induction bytes generalizing c with
  | nil => rfl
  | cons byte bytes ih =>
    obtain ⟨hbyte, h⟩ := List.forall_mem_cons.mp h
    rw [List.cons_append, scanFrom, if_neg hbyte, ih h, List.length_cons, Nat.add_assoc,
      Nat.add_comm 1]

/-- No byte of a character that is no percent sign is one. -/
theorem ne_percent_of_mem_utf8 {c : Char} (hc : c ≠ '%') :
    ∀ byte ∈ String.utf8EncodeChar c, byte ≠ 0x25 := by
  obtain ⟨bytes, hbytes, -, hcontinued⟩ := utf8EncodeChar_eq c
  rw [hbytes]
  refine List.forall_mem_cons.mpr ⟨fun h => hc ((firstByte_eq_percent_iff c).mp h), ?_⟩
  rintro byte hbyte rfl
  exact absurd (hcontinued _ hbyte) (by decide)

/-- The digits of a number are the bytes that are digits. -/
theorem span_digits {digits rest : List Char} (hdigits : ∀ c ∈ digits, c.isDigit)
    (hrest : ∀ c ∈ rest.head?, c.isDigit = false) :
    ((utf8 (digits ++ rest)).takeWhile isDigitByte).length = (utf8 digits).length ∧
      (utf8 (digits ++ rest)).dropWhile isDigitByte = utf8 rest := by
  -- Digits take one byte each, so none of them is cut short.
  have hbytes : ∀ byte ∈ utf8 digits, isDigitByte byte := by
    intro byte hbyte
    obtain ⟨c, hc, hbyte⟩ := List.mem_flatMap.mp hbyte
    have hdigit := Char.isDigit_iff_toNat.mp (hdigits c hc)
    obtain ⟨bytes, hencoded, hascii, -⟩ := utf8EncodeChar_eq c
    obtain rfl := hascii (Nat.lt_of_le_of_lt hdigit.2 (by decide))
    rw [hencoded, List.mem_singleton] at hbyte
    rw [hbyte, isDigitByte_firstByte]
    exact hdigits c hc
  rw [utf8_append, List.takeWhile_append_of_pos hbytes, List.dropWhile_append_of_pos hbytes]
  -- The first character behind the digits does not start with a digit byte either.
  cases rest with
  | nil => exact ⟨by simp, rfl⟩
  | cons c rest =>
    obtain ⟨bytes, hencoded, -, -⟩ := utf8EncodeChar_eq c
    have hc : ¬ isDigitByte (firstByte c) := by simp [isDigitByte_firstByte, hrest c rfl]
    rw [utf8_cons, hencoded, List.cons_append, List.takeWhile_cons_of_neg hc,
      List.dropWhile_cons_of_neg hc, List.append_nil]
    exact ⟨rfl, rfl⟩

/-- The cursors where a literal starts. -/
def Cursors.after (front : List Char) (running : Nat) : Cursors :=
  ⟨(utf8 front).length, (utf8 front).length, running⟩

/-- Only the empty text has no bytes. -/
theorem eq_nil_of_utf8 {cs : List Char} (h : utf8 cs = []) : cs = [] := by
  cases cs with
  | nil => rfl
  | cons c cs =>
    obtain ⟨bytes, hbytes, -, -⟩ := utf8EncodeChar_eq c
    rw [utf8_cons, hbytes] at h
    cases h

/-- Behind a letter of one byte the scanner stands at the next character. -/
theorem length_utf8_behind {c : Char} (hc : c.toNat < 0x80) (front digits : List Char) :
    (utf8 (front ++ ['%'] ++ digits)).length + 1 =
      (utf8 (front ++ '%' :: (digits ++ [c]))).length := by
  obtain ⟨bytes, hbytes, hascii, -⟩ := utf8EncodeChar_eq c
  obtain rfl := hascii hc
  have hfront : front ++ '%' :: (digits ++ [c]) = front ++ ['%'] ++ digits ++ [c] := by simp
  rw [hfront, utf8_append _ [c], List.length_append, utf8_cons, hbytes]
  rfl

/-- A percent sign with what belongs to it, told in characters. -/
theorem scanFrom_percent {digits rest : List Char} (hdigits : ∀ c ∈ digits, c.isDigit)
    (hrest : ∀ c ∈ rest.head?, c.isDigit = false)
    (htext : text = String.ofList (pre ++ lit ++ '%' :: (digits ++ rest))) :
    scanFrom count text ⟨(utf8 (pre ++ lit)).length, (utf8 pre).length, running⟩
        (utf8 ('%' :: (digits ++ rest))) = do
      let numbered ← MonadExcept.ofExcept (numberedOperand digits)
      match rest with
      | [] => throw .missingTag
      | c :: cs =>
        let front := pre ++ lit ++ '%' :: (digits ++ [c])
        if c = '%' ∧ numbered = none then
          return literalOf lit ++ .percent :: (← scanFrom count text (.after front running) (utf8 cs))
        else
          match Tag.ofLetter? c with
          | none => throw (.unknownTag (leadByte c))
          | some tag =>
            let index := numbered.getD running
            if count ≤ index then throw (.operandMissing index count)
            else
              return literalOf lit ++ .placeholder digits index tag ::
                (← scanFrom count text (.after front (index + 1)) (utf8 cs)) := by
  -- The scanner works on byte positions: where the digits start, where they stop, and that the text
  -- cut there is the text read so far.
  obtain ⟨htake, hdrop⟩ := span_digits hdigits hrest
  have hstart : (utf8 (pre ++ lit)).length + 1 = (utf8 (pre ++ lit ++ ['%'])).length := by
    rw [utf8_append (pre ++ lit), List.length_append]
    rfl
  have hstop : (utf8 (pre ++ lit ++ ['%'])).length + (utf8 digits).length =
      (utf8 (pre ++ lit ++ ['%'] ++ digits)).length := by
    rw [utf8_append (pre ++ lit ++ ['%']), List.length_append]
  have hnumber : text = String.ofList (pre ++ lit ++ ['%'] ++ digits ++ rest) := by simp [htext]
  have hbefore : Scan.cut text (utf8 pre).length (utf8 (pre ++ lit)).length = pure lit := by
    rw [htext, cut_utf8]
  rw [show utf8 ('%' :: (digits ++ rest)) = 0x25 :: utf8 (digits ++ rest) from rfl, scanFrom,
    if_pos rfl, hbefore, pure_bind]
  dsimp only
  rw [htake, hstart, hstop, hnumber, cut_utf8, pure_bind, ← hnumber]
  refine congrArg _ (funext fun numbered => ?_)
  -- What the scanner does next depends on whether a byte is left behind the digits, and there is
  -- one exactly if a character is.
  split
  · next hnone =>
    obtain rfl := eq_nil_of_utf8 (hdrop.symm.trans hnone)
    rfl
  · next tag bytes hsome =>
    cases rest with
    | nil =>
      rw [hdrop] at hsome
      cases hsome
    | cons c cs =>
      obtain ⟨continued, hbytes, hascii, -⟩ := utf8EncodeChar_eq c
      rw [hdrop, utf8_cons, hbytes, List.cons_append] at hsome
      obtain ⟨rfl, rfl⟩ := List.cons.inj hsome
      -- From here on both sides ask the same questions of the character, in the same order.
      simp only [firstByte_eq_percent_iff, ofNat_firstByte, ofLetter?_leadByte]
      by_cases hpercent : c = '%' ∧ numbered = none
      · have hbyte : c.toNat < 0x80 := by rw [hpercent.1]; decide
        obtain rfl := hascii hbyte
        rw [if_pos hpercent, if_pos hpercent, length_utf8_behind hbyte]
        rfl
      -- A letter that is none is reported by its lead byte on both sides.
      · rw [if_neg hpercent, if_neg hpercent]
        cases htag : Tag.ofLetter? c with
        | none => rfl
        | some letter =>
          have hletter : c.toNat < 0x80 := by
            rw [← letter_of_ofLetter? htag]
            cases letter <;> decide
          obtain rfl := hascii hletter
          dsimp only
          rw [length_utf8_behind hletter]
          rfl

/-- **Scanning is parsing.** Between the cursors are characters that are no percent signs, and they
become a literal in front of the pieces of the rest. -/
theorem scanFrom_utf8 {rest : List Char} (htext : text = String.ofList (pre ++ lit ++ rest)) :
    scanFrom count text ⟨(utf8 (pre ++ lit)).length, (utf8 pre).length, running⟩ (utf8 rest) =
      MonadExcept.ofExcept ((pieces count running none rest).map fun ps => lit.foldr consChar ps) := by
  -- By strong induction on what is left: a placeholder takes its digits and its letter at once.
  induction hn : rest.length using Nat.strongRecOn generalizing pre lit rest running with
  | ind n ih =>
  subst hn
  cases rest with
  | nil =>
    -- At the end the literal that is still open is the last piece.
    rw [utf8_nil, scanFrom, htext, cut_utf8, pure_bind, pieces]
    exact congrArg pure ((foldr_consChar_of_ne (by simp)).trans (List.append_nil _)).symm
  | cons c cs =>
    by_cases hc : c = '%'
    -- A percent sign takes the digits behind it; the parser reads them one by one, the scanner as a
    -- span.
    · subst hc
      obtain ⟨digits, rest, rfl, hdigits, hrest⟩ : ∃ digits rest, cs = digits ++ rest ∧
          (∀ c ∈ digits, c.isDigit) ∧ ∀ c ∈ rest.head?, c.isDigit = false :=
        ⟨cs.takeWhile Char.isDigit, cs.dropWhile Char.isDigit, List.takeWhile_append_dropWhile.symm,
          fun c hc => List.mem_takeWhile_imp hc, fun c hc => by
            have hhead := List.head?_dropWhile_not Char.isDigit cs
            rw [Option.mem_def.mp hc] at hhead
            simpa using hhead⟩
      rw [scanFrom_percent hdigits hrest htext, pieces, if_pos rfl, pieces_digits hdigits,
        List.nil_append]
      cases rest with
      | nil =>
        rw [pieces]
        cases numberedOperand digits <;> rfl
      | cons c cs =>
        -- What stands behind the letter is shorter, and is read from there by induction.
        have hshorter : cs.length < ('%' :: (digits ++ c :: cs)).length := by simp; omega
        have hbehind : text = String.ofList
            (pre ++ lit ++ '%' :: (digits ++ [c]) ++ [] ++ cs) := by simp [htext]
        have hlater (running : Nat) :
            scanFrom count text (.after (pre ++ lit ++ '%' :: (digits ++ [c])) running) (utf8 cs) =
              MonadExcept.ofExcept (pieces count running none cs) := by
          have hscan := @ih _ hshorter running _ _ _ hbehind rfl
          rw [List.append_nil] at hscan
          rw [Cursors.after, hscan]
          cases pieces count running none cs <;> rfl
        -- A piece that is no literal keeps the open literal in front of it apart.
        have hahead (p : Piece) (ps : List Piece) (hp : ∀ text, p ≠ .literal text) :
            (pure (literalOf lit ++ p :: ps) : Scan (List Piece)) =
              pure (lit.foldr consChar (p :: ps)) := by
          rw [foldr_consChar_of_ne fun text rest heq => hp text (List.cons.inj heq).1]
        rw [pieces, if_neg (by simp [hrest c rfl])]
        cases numberedOperand digits with
        | error fault => rfl
        | ok numbered =>
          change (if c = '%' ∧ numbered = none then _ else _ : Scan _) =
            MonadExcept.ofExcept (Except.map _ (if c = '%' ∧ numbered = none then _ else _))
          by_cases hpercent : c = '%' ∧ numbered = none
          · rw [if_pos hpercent, if_pos hpercent, hlater]
            cases pieces count running none cs with
            | error fault => rfl
            | ok ps => exact hahead .percent ps (by simp)
          rw [if_neg hpercent, if_neg hpercent]
          cases Tag.ofLetter? c with
          | none => rfl
          | some tag =>
            dsimp only
            by_cases hgiven : count ≤ numbered.getD running
            · rw [if_pos hgiven, if_pos hgiven]
              rfl
            rw [if_neg hgiven, if_neg hgiven, hlater]
            cases pieces count (numbered.getD running + 1) none cs with
            | error fault => rfl
            | ok ps => exact hahead (.placeholder digits (numbered.getD running) tag) ps (by simp)
    -- Any other character joins the open literal; no byte of it is a percent sign.
    · have hrest : text = String.ofList (pre ++ (lit ++ [c]) ++ cs) := by simp [htext]
      rw [utf8_cons, scanFrom_inert (ne_percent_of_mem_utf8 hc), pieces, if_neg hc]
      have hposition : (utf8 (pre ++ lit)).length + (String.utf8EncodeChar c).length =
          (utf8 (pre ++ (lit ++ [c]))).length := by
        rw [← List.append_assoc, utf8_append _ [c], List.length_append, utf8_cons, utf8_nil,
          List.append_nil]
      rw [hposition, ih _ (Nat.lt_succ_self _) hrest rfl]
      cases pieces count running none cs with
      | error fault => rfl
      | ok ps => simp [Except.map]

end

/-- Scanning never cuts a character, and comes to what parsing comes to. -/
theorem scanBytes_eq_parse (count : Nat) (pattern : String) :
    (scanBytes count pattern).run = some (parse count pattern) := by
  have hpattern : pattern = String.ofList ([] ++ [] ++ pattern.toList) := by simp
  have hbytes : pattern.toByteArray.data.toList = utf8 pattern.toList := by
    rw [← toList_toByteArray_ofList, String.ofList_toList]
  rw [scanBytes, hbytes]
  have hscan : scanFrom count pattern {} (utf8 pattern.toList) = _ := scanFrom_utf8 hpattern
  refine (congrArg ExceptT.run hscan).trans ?_
  rw [parse]
  cases pieces count 0 none pattern.toList <;> rfl

/-! ### Reading a pattern -/

/-- **A pattern is read by its grammar, and nothing of it is lost.** -/
structure ReadsByGrammar (count : Nat) (pattern : String) : Prop where
  /-- Exactly the texts of the grammar are read. -/
  accepts : (∃ ps, parse count pattern = .ok ps) ↔ IsPattern count 0 pattern.toList
  /-- The pieces spell the pattern, and take the operands that it names. -/
  spells : ∀ ps, parse count pattern = .ok ps → Spells count 0 ps pattern.toList
  /-- The bytes can be cut where the pieces and the numbers start and end: no character is cut, also
  where a fault is found. -/
  cuts : (scanBytes count pattern).run = some (parse count pattern)

theorem parse_readsByGrammar (count : Nat) (pattern : String) : ReadsByGrammar count pattern where
  accepts := exists_pieces_iff count 0 pattern.toList
  spells _ h := (isPattern_of_pieces (by simp) h).2
  cuts := scanBytes_eq_parse count pattern

example : (parse 3 "π%%%3e%2t").toOption =
    some [.literal ['π'], .percent, .placeholder ['3'] 2 .expression,
      .placeholder ['2'] 1 .operator] := by
  decide +kernel

end GoLua.Template
