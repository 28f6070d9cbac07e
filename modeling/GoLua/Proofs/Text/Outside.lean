import GoLua.Lua.Literal

/-!
# What stands outside of string literals

Brackets, blanks and names mean something only outside of string literals. `outsideOf` takes a text
apart: it keeps the characters outside of quotes and the quotes themselves, and has no answer if a
literal is left open. A literal ends with the quote that it starts with, and a backslash in it takes the
next character along, whatever it is.

Which characters quote is a parameter. All literals that lowering writes are in double quotes, and
`outside` looks for those only; the program may have written others into the bodies of its functions,
and `outsideStrings` looks for both kinds. Long strings and comments are read as if they were code.

Texts that close their literals can be looked at one after the other (`outsideOf_append`). Whatever text
is quoted, nothing of it is outside (`isLiteral_quote`).
-/

namespace GoLua

open Lua

-- What holds of the characters of a text is decided by going through the text, not through all
-- characters there are.
instance decidableForallChar {t : List Char} {P : Char → Prop} [DecidablePred P] :
    Decidable (∀ c ∈ t, P c) :=
  List.decidableBAll P t

/-- Where a character of a text stands. -/
inductive Place where
  | code
  /-- In a literal, which the quote will close. -/
  | literal (quote : Char)
  /-- In a literal, behind a backslash. -/
  | escape (quote : Char)

/-- The characters of the rest of a text that stand outside of literals, with the quotes around
these. -/
def outsideFrom (isQuote : Char → Bool) : Place → List Char → Option (List Char)
  | .code, [] => some []
  | _, [] => none
  | .code, c :: cs =>
    (outsideFrom isQuote (if isQuote c then .literal c else .code) cs).map (c :: ·)
  | .literal quote, c :: cs =>
    if c = quote then (outsideFrom isQuote .code cs).map (c :: ·)
    else outsideFrom isQuote (if c = '\\' then .escape quote else .literal quote) cs
  | .escape quote, _ :: cs => outsideFrom isQuote (.literal quote) cs

/-- The characters of a text that stand outside of literals, with the quotes around these; none if a
literal is left open. -/
def outsideOf (isQuote : Char → Bool) (text : List Char) : Option (List Char) :=
  outsideFrom isQuote .code text

/-- What stands outside of literals in double quotes. -/
def outside : List Char → Option (List Char) :=
  outsideOf (· == '"')

/-- What stands outside of literals in double or single quotes. -/
def outsideStrings : List Char → Option (List Char) :=
  outsideOf fun c => c == '"' || c == '\x27'

section

variable {isQuote : Char → Bool} {t u out out' : List Char}

/-- A text whose literals are closed can be followed by another. -/
theorem outsideFrom_append {place : Place} (h : outsideFrom isQuote place t = some out)
    (u : List Char) :
    outsideFrom isQuote place (t ++ u) = (outsideOf isQuote u).map (out ++ ·) := by
  induction t generalizing place out with
  | nil =>
    -- Only in code may a text end.
    cases place with
    | code =>
      obtain rfl : [] = out := by simpa [outsideFrom] using h
      simp [outsideOf]
    | literal quote => simp [outsideFrom] at h
    | escape quote => simp [outsideFrom] at h
  | cons c t ih =>
    cases place with
    | code =>
      rw [outsideFrom] at h
      obtain ⟨rest, hrest, rfl⟩ := Option.map_eq_some_iff.mp h
      rw [List.cons_append, outsideFrom, ih hrest, Option.map_map]
      rfl
    | literal quote =>
      rw [outsideFrom] at h
      rw [List.cons_append, outsideFrom]
      split at h
      · next hc =>
        obtain ⟨rest, hrest, rfl⟩ := Option.map_eq_some_iff.mp h
        rw [if_pos hc, ih hrest, Option.map_map]
        rfl
      · next hc => rw [if_neg hc, ih h]
    | escape quote =>
      rw [outsideFrom] at h
      rw [List.cons_append, outsideFrom, ih h]

theorem outsideOf_append (h : outsideOf isQuote t = some out) (h' : outsideOf isQuote u = some out') :
    outsideOf isQuote (t ++ u) = some (out ++ out') := by
  rw [outsideOf, outsideFrom_append h, h', Option.map_some]

/-- Without quotes there are no literals. -/
theorem outsideOf_of_forall (h : ∀ c ∈ t, isQuote c = false) : outsideOf isQuote t = some t := by
  induction t with
  | nil => rfl
  | cons c t ih =>
    have hc : isQuote c = false := h c List.mem_cons_self
    have hrest : outsideFrom isQuote .code t = some t := ih fun d hd => h d (List.mem_cons_of_mem _ hd)
    rw [outsideOf, outsideFrom, hc, if_neg Bool.false_ne_true, hrest, Option.map_some]

/-- Without quotes of either kind there are no literals. -/
theorem outsideStrings_of_not_mem (hdouble : '"' ∉ t) (hsingle : '\x27' ∉ t) :
    outsideStrings t = some t := by
  refine outsideOf_of_forall fun c hc => ?_
  have hne : c ≠ '"' := fun heq => hdouble (heq ▸ hc)
  have hne' : c ≠ '\x27' := fun heq => hsingle (heq ▸ hc)
  simp [hne, hne']

/-- A text that starts and ends in code. -/
theorem outsideOf_cons {c : Char} (h : isQuote c = false) (ht : outsideOf isQuote t = some out) :
    outsideOf isQuote (c :: t) = some (c :: out) :=
  outsideOf_append (outsideOf_of_forall (t := [c]) (List.forall_mem_singleton.mpr h)) ht

/-- The first character of a text is outside. -/
theorem head?_outsideOf (h : outsideOf isQuote t = some out) : out.head? = t.head? := by
  cases t with
  | nil =>
    obtain rfl : [] = out := by simpa [outsideOf, outsideFrom] using h
    rfl
  | cons c t =>
    rw [outsideOf, outsideFrom] at h
    obtain ⟨rest, -, rfl⟩ := Option.map_eq_some_iff.mp h
    rfl

/-- The last character of a text is outside, if all literals are closed. -/
theorem getLast?_outsideFrom {place : Place} (h : outsideFrom isQuote place t = some out)
    (ht : t ≠ []) : out.getLast? = t.getLast? := by
  induction t generalizing place out with
  | nil => exact absurd rfl ht
  | cons c t ih =>
    -- Where nothing more comes, the character must have been in code, or a closing quote.
    have hstep {next : Place} {rest : List Char} (hrest : outsideFrom isQuote next t = some rest) :
        (c :: rest).getLast? = (c :: t).getLast? := by
      cases t with
      | nil =>
        cases next with
        | code =>
          obtain rfl : [] = rest := by simpa [outsideFrom] using hrest
          rfl
        | literal quote => simp [outsideFrom] at hrest
        | escape quote => simp [outsideFrom] at hrest
      | cons d t =>
        have hlast := ih hrest (by simp)
        cases rest with
        | nil => simp [List.getLast?_eq_some_getLast] at hlast
        | cons r rest => rw [List.getLast?_cons_cons, List.getLast?_cons_cons, hlast]
    cases place with
    | code =>
      rw [outsideFrom] at h
      obtain ⟨rest, hrest, rfl⟩ := Option.map_eq_some_iff.mp h
      exact hstep hrest
    | literal quote =>
      rw [outsideFrom] at h
      split at h
      · obtain ⟨rest, hrest, rfl⟩ := Option.map_eq_some_iff.mp h
        exact hstep hrest
      · cases t with
        | nil => split at h <;> simp [outsideFrom] at h
        | cons d t => rw [List.getLast?_cons_cons, ih h (by simp)]
    | escape quote =>
      rw [outsideFrom] at h
      cases t with
      | nil => simp [outsideFrom] at h
      | cons d t => rw [List.getLast?_cons_cons, ih h (by simp)]

theorem getLast?_outsideOf (h : outsideOf isQuote t = some out) : out.getLast? = t.getLast? := by
  cases t with
  | nil =>
    obtain rfl : [] = out := by simpa [outsideOf, outsideFrom] using h
    rfl
  | cons c t => exact getLast?_outsideFrom h (by simp)

end

/-! ### Literals -/

/-- A text that is one string literal in double quotes, whatever else may quote. -/
def IsLiteral (t : List Char) : Prop :=
  ∀ isQuote : Char → Bool, isQuote '"' → outsideOf isQuote t = some ['"', '"']

/-- Characters that would stand in a literal for themselves. -/
def IsQuiet (t : List Char) : Prop :=
  ∀ c ∈ t, c ≠ '"' ∧ c ≠ '\\'

instance (t : List Char) : Decidable (IsQuiet t) :=
  inferInstanceAs (Decidable (∀ c ∈ t, c ≠ '"' ∧ c ≠ '\\'))

theorem IsQuiet.append {t u : List Char} (ht : IsQuiet t) (hu : IsQuiet u) : IsQuiet (t ++ u) :=
  fun c hc => (List.mem_append.mp hc).elim (ht c) (hu c)

/-- What stands between the quotes of a literal: characters for themselves, and others behind a
backslash, among which there is no percent sign. -/
inductive IsSpelled : List Char → Prop where
  | nil : IsSpelled []
  | plain {c : Char} {cs : List Char} (h : c ≠ '"' ∧ c ≠ '\\') (hcs : IsSpelled cs) :
      IsSpelled (c :: cs)
  | escaped {c : Char} {cs : List Char} (h : c ≠ '%') (hcs : IsSpelled cs) :
      IsSpelled ('\\' :: c :: cs)

theorem IsQuiet.spelled {body : List Char} (h : IsQuiet body) : IsSpelled body := by
  induction body with
  | nil => exact .nil
  | cons c body ih => exact .plain (h c (by simp)) (ih fun d hd => h d (by simp [hd]))

namespace IsSpelled

variable {t u body : List Char}

theorem append (ht : IsSpelled t) (hu : IsSpelled u) : IsSpelled (t ++ u) := by
  induction ht with
  | nil => exact hu
  | plain h _ ih => exact .plain h ih
  | escaped h _ ih => exact .escaped h ih

/-- The literal goes on behind what is spelled in it. -/
theorem outsideFrom_literal (h : IsSpelled body) (isQuote : Char → Bool) (rest : List Char) :
    outsideFrom isQuote (.literal '"') (body ++ rest) = outsideFrom isQuote (.literal '"') rest := by
  induction h with
  | nil => rfl
  | plain h _ ih => rw [List.cons_append, outsideFrom, if_neg h.1, if_neg h.2, ih]
  | escaped _ _ ih =>
    rw [List.cons_append, List.cons_append, outsideFrom, if_neg (by decide), if_pos rfl,
      outsideFrom, ih]

theorem isLiteral (h : IsSpelled body) : IsLiteral ('"' :: body ++ ['"']) := by
  intro isQuote hquote
  rw [List.cons_append, outsideOf, outsideFrom, if_pos hquote, h.outsideFrom_literal]
  rfl

end IsSpelled

/-- Nothing of what stands between quotes of a kind that is looked for is outside. -/
theorem outsideOf_quoted {isQuote : Char → Bool} {quote : Char} {w : List Char}
    (h : ∀ c ∈ w, c ≠ quote ∧ c ≠ '\\') (hquote : isQuote quote) :
    outsideOf isQuote (quote :: w ++ [quote]) = some [quote, quote] := by
  have hword (rest : List Char) :
      outsideFrom isQuote (.literal quote) (w ++ rest) = outsideFrom isQuote (.literal quote) rest := by
    induction w with
    | nil => rfl
    | cons c w ih =>
      obtain ⟨hopen, hslash⟩ := h c List.mem_cons_self
      rw [List.cons_append, outsideFrom, if_neg hopen, if_neg hslash]
      exact ih fun d hd => h d (List.mem_cons_of_mem _ hd)
  rw [List.cons_append, outsideOf, outsideFrom, if_pos hquote, hword, outsideFrom, if_pos rfl]
  rfl

/-- Whether characters stand in a literal for themselves, or start with one behind a backslash. -/
def isSpelling : List Char → Bool
  | '\\' :: c :: cs => c != '%' && cs.all fun c => c != '"' && c != '\\'
  | cs => cs.all fun c => c != '"' && c != '\\'

theorem isSpelled_of_isSpelling {cs : List Char} (h : isSpelling cs) : IsSpelled cs := by
  have hquiet {cs : List Char} (h : cs.all fun c => c != '"' && c != '\\') : IsQuiet cs := by
    intro c hc
    simpa using List.all_eq_true.mp h c hc
  unfold isSpelling at h
  split at h
  · obtain ⟨hc, hcs⟩ := Bool.and_eq_true_iff.mp h
    exact .escaped (bne_iff_ne.mp hc) (hquiet hcs).spelled
  · exact (hquiet h).spelled

theorem isSpelled_quoteByte (b : UInt8) : IsSpelled (quoteByte b).toList := by
  have hall : ∀ n < 256, isSpelling (byteChars n) := by decide +kernel
  exact isSpelled_of_isSpelling (quoteByte_of_forall (p := fun _ cs => isSpelling cs) hall b)

/-- A quoted text is spelled between its quotes. -/
theorem exists_spelled_quote (s : String) :
    ∃ body, IsSpelled body ∧ (quote s).toList = '"' :: body ++ ['"'] := by
  have hbytes (bytes : List UInt8) : IsSpelled (String.join (bytes.map quoteByte)).toList := by
    induction bytes with
    | nil => exact .nil
    | cons b bytes ih =>
      rw [List.map_cons, String.join_cons, String.toList_append]
      exact (isSpelled_quoteByte b).append ih
  refine ⟨_, hbytes s.toUTF8.data.toList, ?_⟩
  rw [quote, quoteBytes, String.toList_append, String.toList_append]
  rfl

/-- **Nothing of a quoted text is outside.** -/
theorem isLiteral_quote (s : String) : IsLiteral (quote s).toList := by
  obtain ⟨body, hbody, hquote⟩ := exists_spelled_quote s
  rw [hquote]
  exact hbody.isLiteral

/-! ### Percent signs -/

/-- Only a percent sign has its byte among those of a character. -/
theorem eq_percent_of_mem_utf8EncodeChar {c : Char} {b : UInt8} (h : b ∈ String.utf8EncodeChar c)
    (hb : b.toNat = 37) : c = '%' := by
  have hval {n : Nat} (hn : b = UInt8.ofNat n) : n % 256 = 37 := by
    rw [hn, UInt8.toNat_ofNat'] at hb
    exact hb
  unfold String.utf8EncodeChar at h
  dsimp only at h
  split at h
  · next hsmall =>
    -- The byte of an ASCII character is its number.
    have hn := hval (List.mem_singleton.mp h)
    have hc : c.val.toNat = 37 := by omega
    exact Char.ext (UInt32.toNat_inj.mp hc)
  · -- All bytes of the other characters are above the ASCII ones.
    split at h
    · simp only [List.mem_cons, List.not_mem_nil, or_false] at h
      rcases h with h | h <;> have hn := hval h <;> omega
    split at h
    · simp only [List.mem_cons, List.not_mem_nil, or_false] at h
      rcases h with h | h | h <;> have hn := hval h <;> omega
    · simp only [List.mem_cons, List.not_mem_nil, or_false] at h
      rcases h with h | h | h | h <;> have hn := hval h <;> omega

/-- The bytes of a text are those of its characters. -/
theorem toList_toUTF8 (s : String) :
    s.toUTF8.data.toList = s.toList.flatMap String.utf8EncodeChar := by
  have hbytes : s.toUTF8 = s.toList.utf8Encode := String.utf8Encode_toList.symm
  rw [hbytes, List.utf8Encode, List.data_toByteArray, List.toList_toArray]

/-- Quoting brings no percent sign into a text. -/
theorem not_mem_quote {s : String} (h : '%' ∉ s.toList) : '%' ∉ (quote s).toList := by
  have hbyte : ∀ n < 256, n ≠ 37 → '%' ∉ byteChars n := by decide +kernel
  rw [quote, quoteBytes, toList_toUTF8, String.toList_append, String.toList_append,
    String.toList_join]
  intro hmem
  simp only [List.mem_append, List.mem_flatMap, List.mem_map] at hmem
  rcases hmem with (hmem | ⟨spelling, ⟨b, ⟨c, hc, hb⟩, rfl⟩, hmem⟩) | hmem
  · simp at hmem
  · have hne : b.toNat ≠ 37 := fun heq => h (eq_percent_of_mem_utf8EncodeChar hb heq ▸ hc)
    exact quoteByte_of_forall (p := fun n cs => n ≠ 37 → '%' ∉ cs) hbyte b hne hmem
  · simp at hmem

end GoLua
