import GoLua.Template.Pattern
import Mathlib.Data.Nat.Digits.Defs

/-!
# The grammar of patterns

A pattern is a sequence of characters other than the percent sign, of doubled percent signs, and of
placeholders. A placeholder with a number takes the operand with that number, one without takes the
operand after the one that the placeholder before it took (`Addresses`); either way the operand has to
be among those that are given. `IsPattern` is this grammar, and it says nothing of pieces.

Parsing succeeds on exactly these texts (`exists_pieces_iff`). What it gives has lost nothing: the
pieces spell the text, a literal is never empty and has no percent sign, and what stands between two
placeholders has no bearing on the second one (`Spells`).
-/

namespace GoLua.Template

/-! ### The grammar -/

/-- The number that decimal digits write. -/
def decimal (digits : List Char) : Nat :=
  Nat.ofDigits 10 (digits.reverse.map fun c => c.toNat - '0'.toNat)

/-- The operand that a placeholder takes, by its place from zero. A number counts from one and fits a
word of 64 bits. -/
inductive Addresses (running : Nat) : List Char → Nat → Prop
  | next : Addresses running [] running
  | numbered {digits : List Char} {index : Nat} (hdigits : ∀ c ∈ digits, c.isDigit)
      (hnumber : decimal digits = index + 1) (hword : decimal digits < 0x10000000000000000) :
      Addresses running digits index

/-- **The grammar.** A text is a pattern for `count` operands, if a placeholder without a number at its
start takes the operand `running`. -/
inductive IsPattern (count : Nat) : Nat → List Char → Prop
  | empty {running : Nat} : IsPattern count running []
  | char {running : Nat} {c : Char} {rest : List Char} (hc : c ≠ '%')
      (h : IsPattern count running rest) : IsPattern count running (c :: rest)
  | percent {running : Nat} {rest : List Char} (h : IsPattern count running rest) :
      IsPattern count running ('%' :: '%' :: rest)
  | placeholder {running index : Nat} {digits : List Char} {tag : Tag} {rest : List Char}
      (haddresses : Addresses running digits index) (hgiven : index < count)
      (h : IsPattern count (index + 1) rest) :
      IsPattern count running ('%' :: (digits ++ tag.letter :: rest))

/-- The operand that a piece takes. -/
def Piece.operand? : Piece → Option Nat
  | .placeholder _ index _ => some index
  | _ => none

/-- The operand that a placeholder without a number takes after other pieces: the one after the operand
of the last placeholder, or `running` if there is none. -/
def runningAfter (running : Nat) (ps : List Piece) : Nat :=
  ((ps.filterMap Piece.operand?).getLast?.map (· + 1)).getD running

/-- **Nothing is lost.** The pieces spell the text, and each placeholder takes the operand that its
digits and the placeholder before it determine. -/
structure Spells (count running : Nat) (ps : List Piece) (cs : List Char) : Prop where
  spelling : ps.flatMap Piece.spelling = cs
  literal : ∀ text, .literal text ∈ ps → text ≠ [] ∧ '%' ∉ text
  placeholder : ∀ before digits index tag after, ps = before ++ .placeholder digits index tag :: after →
    index < count ∧ Addresses (runningAfter running before) digits index

/-! ### Numbers -/

/-- The value of the digits, as the parser adds them up. -/
theorem foldl_eq_decimal (digits : List Char) :
    digits.foldl (fun n c => n * 10 + (c.toNat - '0'.toNat)) 0 = decimal digits := by
  rw [decimal, Nat.ofDigits_eq_foldr, List.foldr_map, List.foldr_reverse]
  refine congrArg (fun f => digits.foldl f 0) (funext fun n => funext fun c => ?_)
  rw [Nat.add_comm, Nat.mul_comm]
  rfl

/-- A number is an index that starts with one and fits a word. -/
theorem numberedOperand_cons (c : Char) (digits : List Char) :
    numberedOperand (c :: digits) =
      if 0x10000000000000000 ≤ decimal (c :: digits) then .error .hugeIndex
      else if decimal (c :: digits) = 0 then .error .zeroIndex
      else .ok (some (decimal (c :: digits) - 1)) := by
  rw [← foldl_eq_decimal]
  rfl

/-- Without digits no operand is numbered. -/
theorem numberedOperand_eq_none {digits : List Char} (h : numberedOperand digits = .ok none) :
    digits = [] := by
  cases digits with
  | nil => rfl
  | cons c digits =>
    rw [numberedOperand_cons] at h
    split at h
    · cases h
    · split at h <;> cases h

/-- What the parser takes digits for is what they address. -/
theorem addresses_of_numberedOperand {running : Nat} {digits : List Char} {numbered : Option Nat}
    (hdigits : ∀ c ∈ digits, c.isDigit) (h : numberedOperand digits = .ok numbered) :
    Addresses running digits (numbered.getD running) := by
  -- No digits address the next operand; digits do so by their value, unless it is zero or too
  -- large.
  cases digits with
  | nil =>
    obtain rfl := Except.ok.inj h
    exact .next
  | cons c digits =>
    rw [numberedOperand_cons] at h
    split at h
    · cases h
    next hword =>
    split at h
    · cases h
    next hzero =>
    obtain rfl := Except.ok.inj h
    exact .numbered hdigits (Nat.sub_add_cancel (Nat.pos_of_ne_zero hzero)).symm
      (Nat.lt_of_not_le hword)

/-- Every address is found by the parser. -/
theorem Addresses.numberedOperand {running index : Nat} {digits : List Char}
    (h : Addresses running digits index) :
    ∃ numbered, numberedOperand digits = .ok numbered ∧ numbered.getD running = index := by
  cases h with
  | next => exact ⟨none, rfl, rfl⟩
  | numbered hdigits hnumber hword =>
    cases digits with
    | nil => cases hnumber
    | cons c digits =>
      refine ⟨some index, ?_, rfl⟩
      rw [numberedOperand_cons, if_neg (Nat.not_le_of_lt hword), hnumber,
        if_neg (Nat.succ_ne_zero index), Nat.add_sub_cancel]

/-- An address consists of digits. -/
theorem Addresses.isDigit {running index : Nat} {digits : List Char}
    (h : Addresses running digits index) : ∀ c ∈ digits, c.isDigit := by
  cases h with
  | next => simp
  | numbered hdigits => exact hdigits

/-! ### Reading -/

section

variable {count running : Nat} {digits cs : List Char} {c : Char} {ps : List Piece}

/-- A tag has one letter. -/
theorem letter_of_ofLetter? {tag : Tag} (h : Tag.ofLetter? c = some tag) : tag.letter = c := by
  unfold Tag.ofLetter? at h
  split at h <;> first | (obtain rfl := Option.some.inj h; rfl) | cases h

theorem isDigit_letter (tag : Tag) : tag.letter.isDigit = false := by
  cases tag <;> rfl

/-- The letter of a tag is no digit. -/
theorem isDigit_of_ofLetter? {tag : Tag} (h : Tag.ofLetter? c = some tag) : c.isDigit = false := by
  rw [← letter_of_ofLetter? h, isDigit_letter]

/-- Inert text is taken as it is. -/
theorem pieces_inert {text : List Char} (h : '%' ∉ text) (running : Nat) (rest : List Char) :
    pieces count running none (text ++ rest) =
      (pieces count running none rest).map fun ps => text.foldr consChar ps := by
  induction text with
  | nil =>
    rw [List.nil_append]
    cases pieces count running none rest <;> rfl
  | cons c text ih =>
    have hc : c ≠ '%' := fun hc => h (by simp [hc])
    rw [List.cons_append, pieces, if_neg hc, ih fun hmem => h (by simp [hmem])]
    cases pieces count running none rest <;> rfl

/-- The digits of a number are read one after the other. -/
theorem pieces_digits {new : List Char} (hnew : ∀ c ∈ new, c.isDigit) (rest : List Char) :
    pieces count running (some digits) (new ++ rest) =
      pieces count running (some (digits ++ new)) rest := by
  induction new generalizing digits with
  | nil => rw [List.nil_append, List.append_nil]
  | cons c new ih =>
    obtain ⟨hc, hnew⟩ := List.forall_mem_cons.mp hnew
    rw [List.cons_append, pieces, if_pos hc, ih hnew, List.append_assoc]
    rfl

/-- What is read behind a percent sign and the digits of a number. -/
theorem pieces_digits_eq_ok (h : pieces count running (some digits) (c :: cs) = .ok ps) :
    (c.isDigit ∧ pieces count running (some (digits ++ [c])) cs = .ok ps) ∨
      (∃ rest, ps = .percent :: rest ∧ c = '%' ∧ pieces count running none cs = .ok rest ∧
        digits = []) ∨
      ∃ numbered tag rest, numberedOperand digits = .ok numbered ∧ Tag.ofLetter? c = some tag ∧
        ps = .placeholder digits (numbered.getD running) tag :: rest ∧
        pieces count (numbered.getD running + 1) none cs = .ok rest ∧
        numbered.getD running < count := by
  -- Behind digits a character is another digit, a second percent sign, or the letter of a tag.
  -- Every error contradicts the result.
  rw [pieces] at h
  split at h
  · next hdigit => exact .inl ⟨hdigit, h⟩
  refine .inr ?_
  cases hnumbered : numberedOperand digits with
  | error fault => simp [hnumbered, bind, Except.bind] at h
  | ok numbered =>
    simp only [hnumbered, bind, Except.bind] at h
    split at h
    · next hpercent =>
      obtain ⟨hc, rfl⟩ := hpercent
      cases hrest : pieces count running none cs with
      | error fault => simp [hrest] at h
      | ok rest =>
        simp only [hrest, pure, Except.pure, Except.ok.injEq] at h
        exact .inl ⟨rest, h.symm, hc, rfl, numberedOperand_eq_none hnumbered⟩
    · cases htag : Tag.ofLetter? c with
      | none => simp [htag] at h
      | some tag =>
        simp only [htag] at h
        split at h
        · cases h
        · next hgiven =>
          cases hrest : pieces count (numbered.getD running + 1) none cs with
          | error fault => simp [hrest] at h
          | ok rest =>
            simp only [hrest, pure, Except.pure, Except.ok.injEq] at h
            exact .inr ⟨numbered, tag, rest, rfl, rfl, h.symm, hrest, Nat.lt_of_not_le hgiven⟩

end

/-! ### Nothing is lost -/

section

variable {count running index : Nat} {digits cs : List Char} {c : Char} {ps before : List Piece}

/-- A piece moves the running index behind its operand. -/
theorem runningAfter_cons (p : Piece) (running : Nat) (before : List Piece) :
    runningAfter running (p :: before) =
      runningAfter ((p.operand?.map (· + 1)).getD running) before := by
  unfold runningAfter
  rw [List.filterMap_cons]
  cases p.operand? with
  | none => rfl
  | some index =>
    simp only [List.getLast?_cons, Option.map_some, Option.getD_some]
    cases (before.filterMap Piece.operand?).getLast? <;> rfl

namespace Spells

theorem empty : Spells count running [] [] where
  spelling := rfl
  literal _ h := by cases h
  placeholder before _ _ _ _ h := by cases before <;> cases h

/-- A piece in front of others, which go on with the operand after its own. -/
theorem cons {p : Piece} (h : Spells count ((p.operand?.map (· + 1)).getD running) ps cs)
    (hliteral : ∀ text, p = .literal text → text ≠ [] ∧ '%' ∉ text)
    (hplaceholder : ∀ digits index tag, p = .placeholder digits index tag →
      index < count ∧ Addresses running digits index) :
    Spells count running (p :: ps) (p.spelling ++ cs) where
  spelling := by rw [List.flatMap_cons, h.spelling]
  literal text htext := by
    rcases List.mem_cons.mp htext with heq | htext
    · exact hliteral text heq.symm
    · exact h.literal text htext
  placeholder before digits index tag after heq := by
    cases before with
    | nil => exact hplaceholder digits index tag (List.cons.inj heq).1
    | cons q before =>
      obtain ⟨rfl, hrest⟩ := List.cons.inj heq
      rw [runningAfter_cons]
      exact h.placeholder before digits index tag after hrest

/-- What is spelled behind a piece is spelled from the index it leaves. -/
theorem tail {p : Piece} (h : Spells count running (p :: ps) cs) :
    Spells count ((p.operand?.map (· + 1)).getD running) ps (ps.flatMap Piece.spelling) where
  spelling := rfl
  literal text htext := h.literal text (List.mem_cons_of_mem p htext)
  placeholder before digits index tag after heq := by
    rw [← runningAfter_cons]
    exact h.placeholder (p :: before) digits index tag after (congrArg (p :: ·) heq)

/-- A character in front of pieces. -/
theorem char (h : Spells count running ps cs) (hc : c ≠ '%') :
    Spells count running (consChar c ps) (c :: cs) := by
  have halone : Spells count running (.literal [c] :: ps) (c :: cs) :=
    cons (p := .literal [c]) h
      (fun text heq => by
        obtain rfl := Piece.literal.inj heq
        exact ⟨List.cons_ne_nil c [], by simpa using hc.symm⟩)
      (fun _ _ _ heq => by cases heq)
  match ps with
  | [] => exact halone
  | .percent :: ps => exact halone
  | .placeholder digits index tag :: ps => exact halone
  | .literal text :: ps =>
    -- The character joins the literal that the pieces start with.
    obtain rfl := h.spelling
    have hjoined : Spells count running (.literal (c :: text) :: ps)
        ((c :: text) ++ ps.flatMap Piece.spelling) := by
      refine cons (p := .literal (c :: text)) h.tail (fun joined heq => ?_)
        (fun _ _ _ heq => by cases heq)
      obtain rfl := Piece.literal.inj heq
      have htext := (h.literal text List.mem_cons_self).2
      exact ⟨List.cons_ne_nil c text, by simpa using ⟨hc.symm, htext⟩⟩
    exact hjoined

end Spells

/-- A placeholder whose digits have been read so far is written in front of the text. -/
def unread (digits? : Option (List Char)) (cs : List Char) : List Char :=
  match digits? with
  | none => cs
  | some digits => '%' :: (digits ++ cs)

/-- **Parsing is sound.** What is parsed is a pattern, and its pieces spell it. -/
theorem isPattern_of_pieces {digits? : Option (List Char)}
    (hdigits : ∀ digits, digits? = some digits → ∀ c ∈ digits, c.isDigit)
    (h : pieces count running digits? cs = .ok ps) :
    IsPattern count running (unread digits? cs) ∧ Spells count running ps (unread digits? cs) := by
  -- By induction on the text, as the parser reads it; the digits read so far are put back in front.
  induction cs generalizing running digits? ps with
  | nil =>
    cases digits? with
    | none =>
      obtain rfl := Except.ok.inj h
      exact ⟨.empty, .empty⟩
    | some digits =>
      rw [pieces] at h
      cases hnumbered : numberedOperand digits <;>
        simp [hnumbered, bind, Except.bind] at h
  | cons c cs ih =>
    have hnone : ∀ digits, (none : Option (List Char)) = some digits → ∀ c ∈ digits, c.isDigit := by
      simp
    cases digits? with
    | none =>
      rw [pieces] at h
      split at h
      · next hc =>
        subst hc
        have hread := ih (by simp) h
        exact hread
      · next hc =>
        cases hrest : pieces count running none cs with
        | error fault =>
          rw [hrest] at h
          cases h
        | ok rest =>
          rw [hrest] at h
          obtain rfl := Except.ok.inj h
          obtain ⟨hpattern, hspells⟩ := ih hnone hrest
          exact ⟨.char hc hpattern, hspells.char hc⟩
    | some digits =>
      have hread := hdigits digits rfl
      -- The three ways to go on behind digits.
      rcases pieces_digits_eq_ok h with ⟨hc, h⟩ | ⟨rest, rfl, rfl, hrest, rfl⟩ |
        ⟨numbered, tag, rest, hnumbered, htag, rfl, hrest, hgiven⟩
      · have hmore := ih (fun _ heq => by
          obtain rfl := Option.some.inj heq
          simpa [or_imp, forall_and] using ⟨hread, hc⟩) h
        simpa [unread] using hmore
      · obtain ⟨hpattern, hspells⟩ := ih hnone hrest
        exact ⟨.percent hpattern, Spells.cons (p := .percent) hspells (fun _ heq => by cases heq)
          fun _ _ _ heq => by cases heq⟩
      · obtain ⟨hpattern, hspells⟩ := ih hnone hrest
        have haddresses : Addresses running digits (numbered.getD running) :=
          addresses_of_numberedOperand hread hnumbered
        have htext : unread (some digits) (c :: cs) = '%' :: (digits ++ tag.letter :: cs) := by
          rw [letter_of_ofLetter? htag]
          rfl
        rw [htext]
        refine ⟨.placeholder haddresses hgiven hpattern, ?_⟩
        have hspelled : Spells count running _ _ := Spells.cons
          (p := .placeholder digits (numbered.getD running) tag) hspells
          (fun _ heq => by cases heq) fun _ _ _ heq => by
            obtain ⟨rfl, rfl, rfl⟩ := Piece.placeholder.inj heq
            exact ⟨hgiven, haddresses⟩
        simpa [Piece.spelling, unread] using hspelled

/-- **Parsing is complete.** Every pattern is parsed. -/
theorem IsPattern.exists_pieces (h : IsPattern count running cs) :
    ∃ ps, pieces count running none cs = .ok ps := by
  -- By induction on the grammar: each rule is one step of the parser.
  induction h with
  | empty => exact ⟨[], by rw [pieces]⟩
  | @char running c rest hc _ ih =>
    obtain ⟨ps, hps⟩ := ih
    exact ⟨consChar c ps, by rw [pieces, if_neg hc, hps]; rfl⟩
  | @percent running rest _ ih =>
    obtain ⟨ps, hps⟩ := ih
    refine ⟨.percent :: ps, ?_⟩
    rw [pieces, if_pos rfl, pieces, if_neg (by decide)]
    simp [numberedOperand, hps, bind, Except.bind, pure, Except.pure]
  | @placeholder running index digits tag rest haddresses hgiven _ ih =>
    obtain ⟨ps, hps⟩ := ih
    obtain ⟨numbered, hnumbered, hindex⟩ := haddresses.numberedOperand
    refine ⟨.placeholder digits index tag :: ps, ?_⟩
    have hletter : tag.letter ≠ '%' := by cases tag <;> decide
    rw [pieces, if_pos rfl, pieces_digits haddresses.isDigit, List.nil_append, pieces,
      if_neg (by simp [isDigit_letter])]
    simp [hnumbered, hindex, hletter, Tag.ofLetter?_letter, Nat.not_le_of_lt hgiven, hps, bind,
      Except.bind, pure, Except.pure]

end

/-- Exactly the patterns are parsed. -/
theorem exists_pieces_iff (count running : Nat) (cs : List Char) :
    (∃ ps, pieces count running none cs = .ok ps) ↔ IsPattern count running cs :=
  ⟨fun ⟨_, h⟩ => (isPattern_of_pieces (by simp) h).1, IsPattern.exists_pieces⟩

end GoLua.Template
