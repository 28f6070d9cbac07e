import GoLua.Proofs.Minted
import GoLua.Proofs.Text.Outside
import GoLua.Text.Delimited

/-!
# The shape of emitted text

All text that lowering emits is put together from a few things: words and operator signs, names of
the program, string literals, names that were generated before, text in brackets, and blanks. `Emitted`
is the grammar of such texts. It is loose on purpose, since all that is asked of a text here is where
its brackets and blanks are and which names it reads.

* A text is *flat* if all of its blanks are inside of brackets. Only a flat text can be an operand as
  it is.
* Two texts stand side by side only where no name comes to touch another (`apart`), so no new name
  arises between them.
* The two words that bind names stand only in front of the names that they bind, and these are generated
  ones. The exception are functions that the program wrote: their code comes with names of the program,
  which are bound to themselves.
* Which names and which code the program brings in is the `Vocabulary`, and which generated names may be
  read is a parameter, `known`.
-/

namespace GoLua

open Lua

/-! ### Characters -/

/-- Whether two characters are brackets that belong together. -/
def isPair : Char → Char → Bool
  | '(', ')' | '[', ']' | '\x7b', '\x7d' => true
  | _, _ => false

def isOpening (c : Char) : Bool :=
  c == '(' || c == '[' || c == '\x7b'

def isClosing (c : Char) : Bool :=
  c == ')' || c == ']' || c == '\x7d'

/-- A sign: no part of a name, no bracket, no blank and no quote of either kind. -/
def isSign (c : Char) : Bool :=
  !isNameChar c && !isOpening c && !isClosing c && c != ' ' && c != '"' && c != '\x27'

/-- A character of a number. It is in no word that binds names. -/
def isFigure (c : Char) : Bool :=
  c.isAlphanum && c != 'o' || isSign c

/-- Whether no name of one text touches a name of the text behind it. -/
def apart (t u : List Char) : Bool :=
  !(t.getLast?.any isNameChar && u.head?.any isNameChar)

theorem apart_of_head {u : List Char} (h : u.head?.any isNameChar = false) (t : List Char) :
    apart t u := by
  simp [apart, h]

theorem apart_of_last {t : List Char} (h : t.getLast?.any isNameChar = false) (u : List Char) :
    apart t u := by
  simp [apart, h]

/-- A pair is an opening and a closing bracket. -/
theorem isOpening_of_isPair {o c : Char} (h : isPair o c) : isOpening o ∧ isClosing c := by
  unfold isPair at h
  split at h
  · exact ⟨rfl, rfl⟩
  · exact ⟨rfl, rfl⟩
  · exact ⟨rfl, rfl⟩
  · cases h

/-- Brackets are no characters of names. -/
theorem not_isNameChar_of_isOpening {c : Char} (h : isOpening c) : isNameChar c = false := by
  rcases Bool.or_eq_true_iff.mp h with h | h
  · rcases Bool.or_eq_true_iff.mp h with h | h <;> rw [eq_of_beq h] <;> rfl
  · rw [eq_of_beq h]
    rfl

theorem not_isNameChar_of_isClosing {c : Char} (h : isClosing c) : isNameChar c = false := by
  rcases Bool.or_eq_true_iff.mp h with h | h
  · rcases Bool.or_eq_true_iff.mp h with h | h <;> rw [eq_of_beq h] <;> rfl
  · rw [eq_of_beq h]
    rfl

theorem not_isNameChar_of_isSign {c : Char} (h : isSign c) : isNameChar c = false := by
  simp only [isSign, Bool.and_eq_true, Bool.not_eq_true'] at h
  exact h.1.1.1.1.1

/-! ### Words that bind -/

/-- Whether a word binds the names behind it. -/
def isBinder (w : List Char) : Bool :=
  w == "local".toList || w == "function".toList

/-- Whether a word may not stand just anywhere: it is the name of a value, or binds names. -/
def isTelling (w : List Char) : Bool :=
  isValueName w || isBinder w

theorem isBinder_iff {w : String} : isBinder w.toList ↔ w = "local" ∨ w = "function" := by
  simp only [isBinder, Bool.or_eq_true, beq_iff_eq, String.toList_inj]

/-- No generated name is a word that binds. -/
theorem isBinder_minted (hint : String) (n : Nat) : isBinder (hint ++ toString n).toList = false := by
  rw [← Bool.not_eq_true, isBinder_iff]
  intro h
  obtain ⟨c, hc⟩ := List.exists_mem_of_ne_nil _ (toList_toString_ne_nil n)
  have hmem : c ∈ (hint ++ toString n).toList := by
    rw [String.toList_append]
    exact List.mem_append_right _ hc
  have hnone : ∀ w ∈ ["local", "function"], ∀ c ∈ w.toList, c.isDigit = false := by decide
  exact absurd (isDigit_of_mem_toString hc) (by simp [hnone _ (by simpa using h) c hmem])

/-- Words that bind are reserved. -/
theorem isBinder_safeName (name : String) : isBinder (safeName name).toList = false := by
  rw [← Bool.not_eq_true, isBinder_iff]
  unfold safeName
  split
  · next hkeyword =>
    have hall : ∀ word ∈ keywords, word ++ "_" ≠ "local" ∧ word ++ "_" ≠ "function" := by decide
    exact not_or.mpr (hall name (List.contains_iff_mem.mp hkeyword))
  · next hkeyword =>
    rintro (rfl | rfl) <;> exact hkeyword rfl

/-- No name of a program binds another. -/
theorem isBinder_of_isName {name : String} (h : isName name) : isBinder name.toList = false := by
  have hsafe : safeName name = name := by
    unfold isName at h
    split at h
    · cases h
    · exact if_neg (by simp at h; simp [h])
  rw [← hsafe]
  exact isBinder_safeName name

/-! ### Texts -/

/-- A failure of the pattern language. -/
def CompileError.isMalformed : CompileError → Bool
  | .gap (.malformedTemplate _ _) => true
  | _ => false

/-- What the program brings into emitted text, and how strictly lowering is looked at. -/
structure Vocabulary where
  /-- Its names: of objects, packages, methods, fields and properties, and of what a function
  captures. -/
  name : String → Prop
  /-- The code of its function bodies. -/
  code : String → Prop
  /-- Whether generated names may be read only behind the statements that assign them. Names of the
  program matter then, and a tag may be any text. -/
  strict : Prop
  /-- The failures that may arise. -/
  failure : CompileError → Prop
  /-- A name that is a reserved word gets an underscore. -/
  safe : ∀ {n}, name n → name (safeName n)
  /-- The index of a box may be taken off. -/
  unboxed : ∀ {n}, name n → name (dropBoxIndex n)
  /-- All names that Lua can spell are good, or all that are good are quiet. -/
  spelled : ¬ strict → ∀ {n}, isName n → name n
  quiet : strict → ∀ {n}, name n → IsQuiet n.toList
  /-- Lowering may fail for whatever reason; only where tags may be any text because of a malformed
  pattern. -/
  failing : ∀ {e}, (e.isMalformed → strict) → failure e

/-- Any failure may arise that is not one of a pattern. -/
theorem Vocabulary.fails (V : Vocabulary) {e : CompileError} (h : e.isMalformed = false) :
    V.failure e :=
  V.failing fun hmalformed => absurd hmalformed (by simp [h])

/-- **The grammar of emitted text.** `Emitted V known flat t` says that `t` is put together from the
vocabulary `V` and generated names that are `known`, without a blank outside of brackets if it is
`flat`. -/
inductive Emitted (V : Vocabulary) (known : String → Prop) : Bool → List Char → Prop where
  | blank : Emitted V known false [' ']
  | sign {c : Char} (h : isSign c) : Emitted V known true [c]
  | word {w : List Char} (h : w.all isNameChar) (hplain : isTelling w = false) :
      Emitted V known true w
  | number {t : List Char} (h : t.all isFigure) : Emitted V known true t
  | known {w : String} (h : known w) (hw : ∀ c ∈ w.toList, isNameChar c)
      (hplain : isBinder w.toList = false) : Emitted V known true w.toList
  | name {n : String} (h : V.name n) (hplain : isBinder n.toList = false) :
      Emitted V known true n.toList
  /-- A package, in front of the name of an entity. -/
  | package {p : String} (h : V.name p) : Emitted V known true (p.toList ++ ['.'])
  /-- The box of a variable. -/
  | box {n : String} (h : V.name n) : Emitted V known true (dropBoxIndex (safeName n)).toList
  | code {c : String} (h : V.code c) : Emitted V known false c.toList
  | literal {t : List Char} (h : IsLiteral t) : Emitted V known true t
  /-- A word in single quotes. -/
  | quoted {w : List Char} (h : w.all isNameChar) (hplain : isTelling w = false) :
      Emitted V known true ('\x27' :: w ++ ['\x27'])
  /-- A declaration of a generated name. -/
  | declaration {x : List Char} (h : isGenerated x) (hx : Emitted V known true x) :
      Emitted V known false ("local ".toList ++ x)
  /-- The head of a function without parameters. -/
  | thunk : Emitted V known true "function()".toList
  /-- The head of a function that takes a generated name. -/
  | parameter {x : List Char} (h : isGenerated x) (hx : Emitted V known true x) :
      Emitted V known true ("function(".toList ++ x ++ [')'])
  /-- Code of the program in a function that takes names of the program, called with these. -/
  | closure {c : String} {names : List String} (hcode : V.code c) (hnames : ∀ n ∈ names, V.name n) :
      Emitted V known true ("(function(" ++ Text.commaSeparated names ++ ") return " ++ c ++ " end)(" ++
        Text.commaSeparated names ++ ")").toList
  | bracket {o c : Char} {t : List Char} (h : isPair o c) (ht : Emitted V known false t) :
      Emitted V known true (o :: t ++ [c])
  | append {a b : Bool} {t u : List Char} (ht : Emitted V known a t) (hu : Emitted V known b u)
      (h : apart t u) : Emitted V known (a && b) (t ++ u)
  | exposed {t : List Char} (ht : Emitted V known true t) : Emitted V known false t

/-- `Emitted` for a string. -/
abbrev Emits (V : Vocabulary) (known : String → Prop) (flat : Bool) (text : String) : Prop :=
  Emitted V known flat text.toList

namespace Emitted

variable {V : Vocabulary} {known known' : String → Prop} {flat : Bool} {t : List Char}

/-- More names may be read. -/
theorem mono (h : Emitted V known flat t) (hknown : ∀ w, known w → known' w) :
    Emitted V known' flat t := by
  -- By induction on how the text is emitted; only known names ask for what is known.
  induction h with
  | blank => exact .blank
  | sign h => exact .sign h
  | word h hplain => exact .word h hplain
  | number h => exact .number h
  | known h hw hplain => exact .known (hknown _ h) hw hplain
  | name h hplain => exact .name h hplain
  | package h => exact .package h
  | box h => exact .box h
  | code h => exact .code h
  | literal h => exact .literal h
  | quoted h hplain => exact .quoted h hplain
  | declaration h _ ih => exact .declaration h ih
  | thunk => exact .thunk
  | parameter h _ ih => exact .parameter h ih
  | closure hcode hnames => exact .closure hcode hnames
  | bracket h _ ih => exact .bracket h ih
  | append _ _ h ih₁ ih₂ => exact .append ih₁ ih₂ h
  | exposed _ ih => exact .exposed ih

/-- A flat text is a text. -/
theorem loose (h : Emitted V known flat t) : Emitted V known false t := by
  cases flat with
  | false => exact h
  | true => exact .exposed h

end Emitted

end GoLua
