import Mathlib.Data.List.Forall2
import GoLua.Go.Kind
import GoLua.Proofs.Minted

/-!
# The words of a type's text

The text of a type is a row of words with delimiters between them. This module is about such texts, and says
where their parts end: a word ends at the first delimiter (`isWord_append_inj`), the name of a declared type
where its brackets are closed (`closesFrom_append_inj`), a kind where nothing continues it
(`spelling_append_inj`), and a row of parts, such as the parameters of a signature, behind the part that its
closing bracket follows (`intercalate_append_inj`). Each is stated of two texts that are the same: then their
first parts are, and so is what stands behind these.

What stands behind the text of a type is one of few things, `Ends`. None of them begins with a word, and
where a blank stands first, no text of a type begins behind it (`starts`). That is what makes the reading
unambiguous.
-/

namespace GoLua.TypeText

/-! ### Words and delimiters -/

/-- The characters that a text has between its words. -/
def isDelimiter (c : Char) : Bool :=
  [' ', ';', ',', '(', ')', '[', ']', '\x7b', '\x7d', '*'].contains c

/-- A text of one word, or of none. -/
def isWord (s : String) : Bool :=
  s.toList.all fun c => !isDelimiter c

/-- The word that a text begins with. -/
def wordOf (cs : List Char) : List Char :=
  cs.takeWhile fun c => !isDelimiter c

/-- What stands behind the word that a text begins with. -/
def behindWord (cs : List Char) : List Char :=
  cs.dropWhile fun c => !isDelimiter c

/-- Whether all brackets are closed in the end, `depth` of them being open at first, and no other delimiter
stands where none is open. -/
def closesFrom : Nat → List Char → Bool
  | depth, [] => depth == 0
  | depth, '[' :: cs => closesFrom (depth + 1) cs
  | depth + 1, ']' :: cs => closesFrom depth cs
  | 0, c :: cs => !isDelimiter c && closesFrom 0 cs
  | depth + 1, _ :: cs => closesFrom (depth + 1) cs

/-- Names of declared types: qualified, with what a generic type is applied to in brackets, if anything.
The one predeclared type whose name is qualified is not among them. -/
def isTypeName (name : String) : Bool :=
  (wordOf name.toList).contains '.' && wordOf name.toList != "unsafe.Pointer".toList &&
    closesFrom 0 name.toList

/-- What may follow the text of a type: nothing, a separator, a closing bracket, or the end of a struct. -/
inductive Ends : List Char → Prop
  | nil : Ends []
  | block (cs : List Char) : Ends (' ' :: '\x7d' :: cs)
  | mark {c : Char} (h : c ∈ [';', ',', ')', ']']) (cs : List Char) : Ends (c :: cs)

/-- What the text of a type may begin with: a word, a square bracket or a star. -/
def starts : List Char → Bool
  | [] => false
  | c :: _ => !isDelimiter c || c == '[' || c == '*'

/-- What ends a type is a delimiter, and not the bracket of type arguments. -/
theorem Ends.isDelimiter {c : Char} {cs : List Char} (h : Ends (c :: cs)) :
    isDelimiter c ∧ c ≠ '[' := by
  cases h with
  | block => decide
  | mark h => revert c; decide

/-- Nothing that ends a text begins with a word. -/
theorem Ends.wordOf_eq {cs : List Char} (h : Ends cs) : wordOf cs = [] := by
  cases cs with
  | nil => rfl
  | cons => simp [wordOf, h.isDelimiter.1]

/-- Of what ends a text, only the end of a struct begins with a blank. -/
theorem Ends.not_starts_of_blank {cs : List Char} (h : Ends (' ' :: cs)) : ¬ starts cs := by
  cases h with
  | block => exact Bool.false_ne_true
  | mark h => exact absurd h (by decide)

/-- What ends a text adds nothing to the word that the text begins with. -/
theorem wordOf_append (cs : List Char) {r : List Char} (h : Ends r) : wordOf (cs ++ r) = wordOf cs := by
  induction cs with
  | nil => exact h.wordOf_eq
  | cons c cs ih =>
    unfold wordOf at ih ⊢
    rw [List.cons_append, List.takeWhile_cons, List.takeWhile_cons, ih]

/-- A word is read as far as it goes. -/
theorem wordOf_of_isWord {word : String} (h : isWord word) {cs : List Char} (hcs : wordOf cs = []) :
    wordOf (word.toList ++ cs) = word.toList := by
  rw [wordOf, List.takeWhile_append_of_pos (List.all_eq_true.mp h)]
  exact (congrArg (word.toList ++ ·) hcs).trans (List.append_nil _)

/-- A word ends where no word begins. -/
theorem isWord_append_inj {u v : String} (hu : isWord u) (hv : isWord v) {cs ds : List Char}
    (hcs : wordOf cs = []) (hds : wordOf ds = []) (h : u.toList ++ cs = v.toList ++ ds) :
    u = v ∧ cs = ds := by
  have hword := congrArg wordOf h
  rw [wordOf_of_isWord hu hcs, wordOf_of_isWord hv hds] at hword
  exact ⟨String.toList_injective hword, List.append_cancel_left (hword ▸ h)⟩

/-- What stands behind a name whose brackets are closed is read as if nothing stood before it. -/
theorem closesFrom_append {name : List Char} {depth : Nat} (h : closesFrom depth name)
    (cs : List Char) : closesFrom depth (name ++ cs) = closesFrom 0 cs := by
  fun_induction closesFrom depth name with
  | case1 => simp_all
  | case2 => simp_all [closesFrom]
  | case3 => simp_all [closesFrom]
  | case4 => simp_all [closesFrom]
  | case5 => simp_all [closesFrom]

/-- A name is not continued by anything that ends it. -/
theorem eq_nil_of_closesFrom {cs r : List Char} (h : closesFrom 0 cs) (hr : Ends (cs ++ r)) :
    cs = [] := by
  cases cs with
  | nil => rfl
  | cons c cs =>
    obtain ⟨hdelimiter, hbracket⟩ := hr.isDelimiter
    simp [closesFrom, hdelimiter] at h

/-- A name ends where its brackets are closed and nothing continues it. -/
theorem closesFrom_append_inj {m n : List Char} (hm : closesFrom 0 m) (hn : closesFrom 0 n)
    {r r' : List Char} (hr : Ends r) (hr' : Ends r') (h : m ++ r = n ++ r') : m = n ∧ r = r' := by
  obtain ⟨cs, rfl, rfl⟩ | ⟨cs, rfl, rfl⟩ := List.append_eq_append_iff.mp h
  · rw [closesFrom_append hm] at hn
    obtain rfl := eq_nil_of_closesFrom hn hr
    simp
  · rw [closesFrom_append hn] at hm
    obtain rfl := eq_nil_of_closesFrom hm hr'
    simp

/-- The word and what stands behind it are the whole. -/
theorem wordOf_append_behindWord (cs : List Char) : wordOf cs ++ behindWord cs = cs :=
  List.takeWhile_append_dropWhile

/-- Behind its first word a name ends or continues in brackets. -/
theorem behindWord_of_closesFrom {name : List Char} (h : closesFrom 0 name) :
    behindWord name = [] ∨ ∃ cs, behindWord name = '[' :: cs := by
  induction name with
  | nil => exact .inl rfl
  | cons c cs ih =>
    by_cases hc : c = '['
    · exact .inr ⟨cs, by rw [hc]; rfl⟩
    · have hcs : isDelimiter c = false ∧ closesFrom 0 cs := by simpa [closesFrom, hc] using h
      unfold behindWord at ih ⊢
      rw [List.dropWhile_cons_of_pos (by simp [hcs.1])]
      exact ih hcs.2

/-! ### Kinds and numbers -/

variable {r r' : List Char}

/-- Kinds are written differently. -/
theorem spelling_injective : Function.Injective Kind.spelling := by
  have hfound (k : Kind) : Kind.all.find? (fun j => j.spelling == k.spelling) = some k := by
    cases k <;> decide
  intro j k h
  exact Option.some.inj ((hfound j).symm.trans (h ▸ hfound k))

/-- A kind without the word that makes it untyped. -/
def noun (k : Kind) : List Char :=
  k.spelling.toList.drop (if k.isUntyped then "untyped ".length else 0)

/-- The untyped kinds are written in two words, with the kind in the second. -/
theorem toList_spelling (k : Kind) :
    k.spelling.toList = (if k.isUntyped then "untyped ".toList else []) ++ noun k := by
  cases k <;> decide

theorem wordOf_spelling (k : Kind) : (wordOf k.spelling.toList == "untyped".toList) = k.isUntyped := by
  cases k <;> decide

theorem closesFrom_noun (k : Kind) : closesFrom 0 (noun k) := by
  cases k <;> decide

/-- The text of a kind is told from its end, wherever it stands before what ends a type. -/
theorem spelling_append_inj {j k : Kind} (hr : Ends r) (hr' : Ends r')
    (h : j.spelling.toList ++ r = k.spelling.toList ++ r') : j = k ∧ r = r' := by
  have hword := congrArg wordOf h
  rw [wordOf_append _ hr, wordOf_append _ hr'] at hword
  have huntyped : j.isUntyped = k.isUntyped := by
    rw [← wordOf_spelling, hword, wordOf_spelling]
  have hnoun : noun j ++ r = noun k ++ r' := by
    rw [toList_spelling, toList_spelling, huntyped, List.append_assoc, List.append_assoc] at h
    exact List.append_cancel_left h
  obtain ⟨hnoun, hrest⟩ := closesFrom_append_inj (closesFrom_noun j) (closesFrom_noun k) hr hr' hnoun
  refine ⟨spelling_injective (String.toList_injective ?_), hrest⟩
  rw [toList_spelling, toList_spelling, huntyped, hnoun]

/-- Digits are characters of a word. -/
theorem isWord_toString (n : Nat) : isWord (toString n) := by
  have hdelimiters : ∀ c ∈ [' ', ';', ',', '(', ')', '[', ']', '\x7b', '\x7d', '*'], ¬ c.isDigit := by
    decide
  refine List.all_eq_true.mpr fun c hc => ?_
  rw [Bool.not_eq_true', ← Bool.not_eq_true]
  exact fun hdelimiter => hdelimiters c (List.contains_iff_mem.mp hdelimiter) (isDigit_of_mem_toString hc)

/-! ### Rows -/

/-- Texts that follow another one, each behind a separator. -/
def following (separator : String) (texts : List String) : List Char :=
  texts.flatMap fun text => separator.toList ++ text.toList

/-- A text that is joined begins with its first part, and goes on with separators. -/
theorem toList_intercalate_cons (separator t : String) (ts : List String) :
    (separator.intercalate (t :: ts)).toList = t.toList ++ following separator ts := by
  induction ts generalizing t with
  | nil => simp [following]
  | cons u us ih => simp [String.intercalate_cons_cons, ih, following]

section Rows

variable {α : Type} {text : α → String} {same : α → α → Prop} {separator : String}
  {close : List Char} {as bs : List α}

/-- What stands between the items of a row, and what closes it: both end an item, and one is not taken for
the other. -/
structure Punctuates (separator : String) (close : List Char) : Prop where
  separates (cs : List Char) : Ends (separator.toList ++ cs)
  closes (cs : List Char) : Ends (close ++ cs)
  apart (cs ds : List Char) : separator.toList ++ cs ≠ close ++ ds

/-- Parameters and types are separated by commas, and closed by a bracket. -/
theorem punctuates_types : Punctuates ", " [')'] where
  separates _ := .mark (by decide) _
  closes _ := .mark (by decide) _
  apart _ _ h := absurd (List.cons.inj h).1 (by decide)

/-- Fields and methods are separated by semicolons, and closed by a brace. -/
theorem punctuates_fields : Punctuates "; " [' ', '\x7d'] where
  separates _ := .mark (by decide) _
  closes _ := .block _
  apart _ _ h := absurd (List.cons.inj h).1 (by decide)

/-- Two texts are the same only where `P` holds, and they end in the same place, whatever ends them. -/
def Tells (u v : String) (P : Prop) : Prop :=
  ∀ {r r' : List Char}, Ends r → Ends r' → u.toList ++ r = v.toList ++ r' → P ∧ r = r'

/-- Whatever follows a part, a separator or the end, ends a type. -/
theorem Punctuates.ends (hrow : Punctuates separator close) (texts : List String) (cs : List Char) :
    Ends (following separator texts ++ (close ++ cs)) := by
  cases texts with
  | nil => exact hrow.closes cs
  | cons => simpa [following] using hrow.separates _

/-- A row is read item by item: behind an item there is a separator, or the row is closed. -/
theorem following_append_inj (hrow : Punctuates separator close)
    (htells : ∀ a ∈ as, ∀ b ∈ bs, Tells (text a) (text b) (same a b))
    (h : following separator (as.map text) ++ (close ++ r) =
      following separator (bs.map text) ++ (close ++ r')) : List.Forall₂ same as bs ∧ r = r' := by
  induction as generalizing bs with
  -- A separator and the closing mark are told apart by their first characters.
  | nil => cases bs with
    | nil => exact ⟨.nil, List.append_cancel_left h⟩
    | cons => exact absurd h.symm (by simpa [following] using hrow.apart _ _)
  | cons a as ih => cases bs with
    | nil => exact absurd h (by simpa [following] using hrow.apart _ _)
    | cons b bs =>
      simp only [following, List.map_cons, List.flatMap_cons, List.append_assoc,
        List.append_cancel_left_eq] at h
      obtain ⟨hsame, hrest⟩ := htells a List.mem_cons_self b List.mem_cons_self
        (hrow.ends _ r) (hrow.ends _ r') h
      obtain ⟨hothers, hrest⟩ := ih (fun a ha b hb => htells a (.tail _ ha) b (.tail _ hb)) hrest
      exact ⟨.cons hsame hothers, hrest⟩

/-- So is a row from its first item on, where no item begins with what closes the row. -/
theorem intercalate_append_inj (hrow : Punctuates separator close)
    (htells : ∀ a ∈ as, ∀ b ∈ bs, Tells (text a) (text b) (same a b))
    (hempty : as = [] ↔ bs = [])
    (h : (separator.intercalate (as.map text)).toList ++ (close ++ r) =
      (separator.intercalate (bs.map text)).toList ++ (close ++ r')) :
    List.Forall₂ same as bs ∧ r = r' := by
  cases as with
  | nil =>
    -- Whether the lists are empty is known beforehand; their first members have no separator before
    -- them.
    obtain rfl := hempty.mp rfl
    exact ⟨.nil, List.append_cancel_left h⟩
  | cons a as => cases bs with
    | nil => cases hempty.mpr rfl
    | cons b bs =>
      simp only [List.map_cons, toList_intercalate_cons, List.append_assoc] at h
      obtain ⟨hsame, hrest⟩ := htells a List.mem_cons_self b List.mem_cons_self
        (hrow.ends _ r) (hrow.ends _ r') h
      obtain ⟨hothers, hrest⟩ := following_append_inj hrow
        (fun a ha b hb => htells a (.tail _ ha) b (.tail _ hb)) hrest
      exact ⟨.cons hsame hothers, hrest⟩

/-- A row in which no item begins with what closes it is empty if it is closed at once. -/
theorem eq_nil_of_intercalate (hfirst : ∀ b ∈ bs, ∀ cs ds, (text b).toList ++ cs ≠ close ++ ds)
    {cs ds : List Char} (h : (separator.intercalate (bs.map text)).toList ++ cs = close ++ ds) :
    bs = [] := by
  cases bs with
  | nil => rfl
  | cons b bs =>
    simp only [List.map_cons, toList_intercalate_cons, List.append_assoc] at h
    exact absurd h (hfirst b List.mem_cons_self _ _)

end Rows

end GoLua.TypeText
