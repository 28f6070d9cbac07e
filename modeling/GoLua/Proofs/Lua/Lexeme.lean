import GoLua.Lua.Name

/-!
# Lexemes of Lua text

How emitted text falls into words, numerals and symbols. A run of name characters is one lexeme, a
symbol of two characters is one, and every other character is one by itself, blanks included.

Text is put together from the texts of parts, so what matters is where two texts may be put side by
side without growing together: `lexemes_append` needs no more than that the last character of the one
and the first of the other do not meet. Blanks, round brackets and commas meet nothing
(`lexemes_append_separator`).

Lexemes are glued from the right. Where three characters in a row could pair up in two ways, as in
three equality signs, Lua pairs the first two and this pairs the last two; no expression has such a
row either way.
-/

namespace GoLua.Lua

/-- Two characters that make a symbol, or that start a comment or a long string. -/
def isPair (c d : Char) : Bool :=
  match c, d with
  | '<', '<' | '>', '>' | '<', '=' | '>', '=' | '=', '=' | '~', '=' => true
  | '-', '-' | '.', '.' | '/', '/' | ':', ':' | '[', '[' | '[', '=' => true
  | _, _ => false

/-- Whether two characters side by side are part of one lexeme. -/
def meets (c d : Char) : Bool :=
  (isNameChar c && isNameChar d) || isPair c d

/-- Whether a character goes in front of a lexeme. A symbol has two characters at most. -/
def joins (c : Char) : List Char → Bool
  | [] => false
  | d :: ds => (isNameChar c && isNameChar d) || (ds.isEmpty && isPair c d)

/-- Puts a character in front of lexemes. -/
def glue (c : Char) : List (List Char) → List (List Char)
  | [] => [[c]]
  | l :: ls => if joins c l then (c :: l) :: ls else [c] :: l :: ls

/-- The lexemes of a text. -/
def lexemes : List Char → List (List Char)
  | [] => []
  | c :: cs => glue c (lexemes cs)

theorem glue_append (c : Char) {ls : List (List Char)} (h : ls ≠ []) (ms : List (List Char)) :
    glue c (ls ++ ms) = glue c ls ++ ms := by
  cases ls with
  | nil => exact absurd rfl h
  | cons l ls =>
    simp only [List.cons_append, glue]
    split <;> rfl

/-- The first lexeme starts with the first character. -/
theorem lexemes_cons (c : Char) (cs : List Char) : ∃ l ls, lexemes (c :: cs) = (c :: l) :: ls := by
  simp only [lexemes]
  cases lexemes cs with
  | nil => exact ⟨[], [], rfl⟩
  | cons l ls =>
    simp only [glue]
    split
    · exact ⟨l, ls, rfl⟩
    · exact ⟨[], l :: ls, rfl⟩

theorem lexemes_ne_nil {cs : List Char} (h : cs ≠ []) : lexemes cs ≠ [] := by
  obtain ⟨c, cs, rfl⟩ := List.exists_cons_of_ne_nil h
  obtain ⟨l, ls, hls⟩ := lexemes_cons c cs
  rw [hls]
  exact List.cons_ne_nil _ _

/-- A character stays by itself in front of a text that it does not meet. -/
theorem glue_lexemes {c : Char} {cs : List Char} (h : ∀ d ∈ cs.head?, meets c d = false) :
    glue c (lexemes cs) = [c] :: lexemes cs := by
  cases cs with
  | nil => rfl
  | cons d cs =>
    obtain ⟨l, ls, hls⟩ := lexemes_cons d cs
    have hmeets := h d rfl
    simp only [meets, Bool.or_eq_false_iff] at hmeets
    simp [hls, glue, joins, hmeets]

/-- **Texts side by side.** Two texts that do not meet have the lexemes of both. -/
theorem lexemes_append {as bs : List Char}
    (h : ∀ c ∈ as.getLast?, ∀ d ∈ bs.head?, meets c d = false) :
    lexemes (as ++ bs) = lexemes as ++ lexemes bs := by
  induction as with
  | nil => rfl
  | cons a as ih =>
    cases as with
    | nil => exact glue_lexemes fun d hd => h a rfl d hd
    | cons b as =>
      have hrest := ih fun c hc => h c (by simpa using hc)
      have hne : lexemes (b :: as) ≠ [] := lexemes_ne_nil (List.cons_ne_nil _ _)
      rw [List.cons_append, lexemes, hrest, glue_append a hne]
      rfl

/-! ### Characters that meet nothing -/

/-- A character of another class than those of symbols is part of no pair. -/
theorem isPair_eq_false (test : Char → Bool)
    (htest : ['<', '>', '=', '~', '-', '.', '/', ':', '['].any test = false) {c : Char}
    (h : test c) (d : Char) : isPair c d = false ∧ isPair d c = false := by
  have hsymbol := List.any_eq_false.mp htest
  have hnot {a b : Char} (hpair : isPair a b) : test a = false ∧ test b = false := by
    unfold isPair at hpair
    split at hpair <;> first
      | exact ⟨Bool.eq_false_iff.mpr (hsymbol _ (by decide)),
          Bool.eq_false_iff.mpr (hsymbol _ (by decide))⟩
      | cases hpair
  constructor
  · refine Bool.eq_false_iff.mpr fun hpair => ?_
    rw [(hnot hpair).1] at h
    cases h
  · refine Bool.eq_false_iff.mpr fun hpair => ?_
    rw [(hnot hpair).2] at h
    cases h

/-- Names end where something else begins, and begin where it ends. -/
theorem meets_isNameChar {c d : Char} (hc : isNameChar c) (hd : isNameChar d = false) :
    meets c d = false ∧ meets d c = false := by
  have hpair := isPair_eq_false isNameChar rfl hc d
  simp only [meets, hd, hpair, Bool.and_false, Bool.false_and, Bool.or_false, and_self]

/-- Blanks, round brackets and commas. -/
def isSeparator (c : Char) : Bool :=
  c == ' ' || c == '(' || c == ')' || c == ','

theorem meets_separator {c : Char} (h : isSeparator c) (d : Char) :
    meets c d = false ∧ meets d c = false := by
  have hname : isNameChar c = false := by
    simp only [isSeparator, Bool.or_eq_true, beq_iff_eq] at h
    rcases h with ((rfl | rfl) | rfl) | rfl <;> rfl
  have hpair := isPair_eq_false isSeparator rfl h d
  simp only [meets, hname, hpair, Bool.and_false, Bool.false_and, Bool.or_false, and_self]

/-- A separator between two texts is a lexeme of its own. -/
theorem lexemes_append_separator (as : List Char) {c : Char} (h : isSeparator c) (bs : List Char) :
    lexemes (as ++ c :: bs) = lexemes as ++ [c] :: lexemes bs := by
  rw [lexemes_append fun a _ d hd => by
    obtain rfl : c = d := by simpa using hd
    exact (meets_separator h a).2]
  rw [lexemes, glue_lexemes fun d _ => (meets_separator h d).1]

/-- A text of name characters is one lexeme. -/
theorem lexemes_of_all_isNameChar {cs : List Char} (hne : cs ≠ []) (h : cs.all isNameChar) :
    lexemes cs = [cs] := by
  induction cs with
  | nil => exact absurd rfl hne
  | cons c cs ih =>
    simp only [List.all_cons, Bool.and_eq_true] at h
    cases cs with
    | nil => rfl
    | cons d cs =>
      have hd : isNameChar d = true := by
        have := h.2
        simp only [List.all_cons, Bool.and_eq_true] at this
        exact this.1
      rw [lexemes, ih (List.cons_ne_nil _ _) h.2]
      simp [glue, joins, h.1, hd]

end GoLua.Lua
