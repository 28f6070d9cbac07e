import GoLua.Proofs.Type.Shown
import GoLua.Proofs.Type.Words

/-!
# Reading a type off its text

The text of a type tells what type it is, up to what texts leave out, if the names in the type let it be read
at all: a declared type has a qualified name, and no name contains what a text is punctuated with
(`GoType.wellNamed`). The first word of a text, or the bracket or star that it begins with, tells the
constructor (`formOf_text`), so only texts of one constructor are ever compared part by part. For each
constructor there is one lemma, from the same for its parts; `GoType.IsTold.all` is put together from them
by `GoType.partsInduction`.

Two texts might be confused beyond that. A field that is not embedded is written as its name, a blank and
its type, and so are a channel and an untyped kind, with a word for the name; a name is no reserved word,
and no field is of an untyped kind (`embedded_text_ne`). A signature may be followed by a blank where a
struct is closed, and by a blank and a result; no type begins with a brace (`resultsForm_text`).
-/

namespace GoLua

open TypeText

/-! ### Types that can be read off their texts -/

/-- Untyped kinds, which only constants have. -/
def GoType.isUntyped : GoType → Bool
  | .basic k => k.isUntyped
  | _ => false

mutual

/-- Whether the names in a type leave its text readable. That the type has no tuple in it is part of this.
Types of a program are such: no field is called `chan`, which is a reserved word, and no embedded one is of
an untyped kind. -/
def GoType.wellNamed : GoType → Bool
  | .basic _ => true
  | .array elem _ => elem.wellNamed
  | .slice elem => elem.wellNamed
  | .map key elem => key.wellNamed && elem.wellNamed
  | .struct fields => wellNamedFields fields
  | .pointer elem => elem.wellNamed
  | .interface methods => methods.all isWord
  | .func signature => signature.wellNamed
  | .chan elem => elem.wellNamed
  | .named name _ => isTypeName name
  | .tuple _ => false
termination_by structural t => t

/-- Whether the names in several types leave their texts readable. -/
def wellNamedTypes : List GoType → Bool
  | [] => true
  | t :: ts => t.wellNamed && wellNamedTypes ts
termination_by structural ts => ts

/-- Whether the names in several fields leave their texts readable. -/
def wellNamedFields : List Field → Bool
  | [] => true
  | f :: fs => f.wellNamed && wellNamedFields fs
termination_by structural fs => fs

/-- Whether the names in a field leave its text readable. -/
def Field.wellNamed : Field → Bool
  | ⟨name, type, embedded, _⟩ =>
    type.wellNamed &&
      if embedded then !type.isUntyped else isWord name && name != "chan"
termination_by structural f => f

/-- Whether the names in a signature leave its text readable. -/
def Signature.wellNamed : Signature → Bool
  | ⟨_, params, results, _⟩ => wellNamedTypes params && wellNamedTypes results
termination_by structural s => s

end

/-! ### The constructor of a type -/

namespace TypeText

/-- What tells the texts of types apart at first sight: the constructors, without that of tuples. -/
inductive Form where
  | basic
  | array
  | slice
  | map
  | struct
  | pointer
  | interface
  | func
  | chan
  | named
  deriving DecidableEq

/-- The form of a type whose text begins with a word. -/
def formOfWord (word : List Char) : Form :=
  if word.contains '.' && word != "unsafe.Pointer".toList then .named
  else if word = "map".toList then .map
  else if word = "struct".toList then .struct
  else if word = "interface".toList then .interface
  else if word = "func".toList then .func
  else if word = "chan".toList then .chan
  else .basic

/-- The form of a type, read off a text that begins with the text of the type. -/
def formOf (cs : List Char) : Form :=
  match cs with
  | '*' :: _ => .pointer
  | '[' :: ']' :: _ => .slice
  | '[' :: _ => .array
  | _ => formOfWord (wordOf cs)

end TypeText

/-- The form of a type; a tuple has none. -/
def GoType.form? : GoType → Option Form
  | .basic _ => some .basic
  | .array _ _ => some .array
  | .slice _ => some .slice
  | .map _ _ => some .map
  | .struct _ => some .struct
  | .pointer _ => some .pointer
  | .interface _ => some .interface
  | .func _ => some .func
  | .chan _ => some .chan
  | .named _ _ => some .named
  | .tuple _ => none

namespace TypeText

variable {r r' : List Char}

/-- A text that begins with a word begins with no bracket and no star. -/
theorem formOf_of_ne_nil {cs : List Char} (h : wordOf cs ≠ []) : formOf cs = formOfWord (wordOf cs) := by
  unfold formOf
  split
  · exact absurd rfl h
  · exact absurd rfl h
  · exact absurd rfl h
  · rfl

/-- A word with none behind it tells the form. -/
theorem formOf_append (word : String) (hword : isWord word) (hne : word.toList ≠ []) {cs : List Char}
    (hcs : wordOf cs = []) : formOf (word.toList ++ cs) = formOfWord word.toList := by
  have hfirst := wordOf_of_isWord hword hcs
  rw [formOf_of_ne_nil (by rwa [hfirst]), hfirst]

/-! ### The parts of a text -/

/-- The results of a signature, as they stand behind its parameters. -/
def resultsText : List GoType → List Char
  | [] => []
  | [result] => ' ' :: result.text.toList
  | results => ' ' :: '(' :: ((Text.commaSeparated (typeTexts results)).toList ++ [')'])

end TypeText

namespace GoType

variable (key elem : GoType) (len : Nat) (name : String) (methods : List String) (fields : List Field)

/-- How each type is written, in characters: an array by its length in brackets. -/
theorem toList_text_array :
    (array elem len).text.toList = '[' :: ((toString len).toList ++ ']' :: elem.text.toList) := by
  simp [text]

theorem toList_text_slice : (slice elem).text.toList = '[' :: ']' :: elem.text.toList := by
  simp [text]

theorem toList_text_map :
    (map key elem).text.toList = "map".toList ++ '[' :: (key.text.toList ++ ']' :: elem.text.toList) := by
  simp [text]

theorem toList_text_pointer : (pointer elem).text.toList = '*' :: elem.text.toList := by
  simp [text]

theorem toList_text_chan : (chan elem).text.toList = "chan".toList ++ ' ' :: elem.text.toList := by
  simp [text]

/-- A struct is the word, a brace, and its fields between blanks. -/
theorem toList_text_struct :
    (struct fields).text.toList = "struct".toList ++ ' ' :: '\x7b' :: ' ' ::
      (("; ".intercalate (fieldTexts fields)).toList ++ [' ', '\x7d']) := by
  simp [text, Text.braced]

/-- An interface without methods has no blank in its braces but one. -/
theorem toList_text_interface_nil :
    (interface []).text.toList = "interface".toList ++ [' ', '\x7b', '\x7d'] := by
  simp [text, Text.braced]

theorem toList_text_interface_cons (method : String) :
    (interface (method :: methods)).text.toList = "interface".toList ++ ' ' :: '\x7b' :: ' ' ::
      (("; ".intercalate (method :: methods)).toList ++ [' ', '\x7d']) := by
  simp [text, Text.braced]

/-- A function is the word, its parameters in brackets, and its results. -/
theorem toList_text_func (recv : Option GoType) (params results : List GoType) (variadic : Bool) :
    (func ⟨recv, params, results, variadic⟩).text.toList = "func".toList ++ '(' ::
      ((Text.commaSeparated (typeTexts params)).toList ++ ')' :: resultsText results) := by
  match results with
  | [] => simp [text, Signature.text, typeTexts, resultsText, Text.parenthesized]
  | [result] => simp [text, Signature.text, typeTexts, resultsText, Text.parenthesized]
  | _ :: _ :: _ => simp [text, Signature.text, typeTexts, resultsText, Text.parenthesized]

end GoType

namespace TypeText

variable {r r' : List Char}

/-- The constructor of a type can be read off its text. -/
theorem formOf_text {t : GoType} (h : t.wellNamed) (hr : Ends r) :
    some (formOf (t.text.toList ++ r)) = t.form? := by
  cases t with
  -- A kind is written as a word that no other form begins with.
  | basic k =>
    have hword : wordOf (k.spelling.toList ++ r) = wordOf k.spelling.toList := wordOf_append _ hr
    rw [GoType.text, formOf_of_ne_nil] <;> rw [hword] <;> cases k <;> decide
  | array elem len =>
    -- A length has a digit, so what follows the bracket is no bracket, as it is for a slice.
    have hne : (toString len).toList ≠ [] := by simp
    obtain ⟨c, cs, hcs⟩ := List.exists_cons_of_ne_nil hne
    have hc : c ≠ ']' := by
      rintro rfl
      exact absurd (isDigit_of_mem_toString (hcs ▸ List.mem_cons_self)) (by decide)
    rw [GoType.toList_text_array, hcs]
    simp [formOf, hc, GoType.form?]
  | slice elem => rw [GoType.toList_text_slice]; rfl
  | map key elem =>
    rw [GoType.toList_text_map, List.append_assoc]
    exact congrArg some (formOf_append "map" (by decide) (by decide) rfl)
  | struct =>
    rw [GoType.toList_text_struct, List.append_assoc]
    exact congrArg some (formOf_append "struct" (by decide) (by decide) rfl)
  | pointer => rw [GoType.toList_text_pointer]; rfl
  | interface methods =>
    cases methods with
    | nil =>
      rw [GoType.toList_text_interface_nil, List.append_assoc]
      exact congrArg some (formOf_append "interface" (by decide) (by decide) rfl)
    | cons =>
      rw [GoType.toList_text_interface_cons, List.append_assoc]
      exact congrArg some (formOf_append "interface" (by decide) (by decide) rfl)
  | func signature =>
    obtain ⟨recv, params, results, variadic⟩ := signature
    rw [GoType.toList_text_func, List.append_assoc]
    exact congrArg some (formOf_append "func" (by decide) (by decide) rfl)
  | chan =>
    rw [GoType.toList_text_chan, List.append_assoc]
    exact congrArg some (formOf_append "chan" (by decide) (by decide) rfl)
  -- The name of a type has a dot in it and no star, and so is no word of the language.
  | named name =>
    have hname : isTypeName name := h
    simp only [isTypeName, Bool.and_eq_true] at hname
    obtain ⟨⟨hdot, hpointer⟩, -⟩ := hname
    have hword : wordOf (name.toList ++ r) = wordOf name.toList := wordOf_append _ hr
    have hne : wordOf name.toList ≠ [] := by
      rintro hnil
      simp [hnil] at hdot
    rw [GoType.text, formOf_of_ne_nil (by rwa [hword]), hword, formOfWord,
      if_pos (Bool.and_eq_true_iff.mpr ⟨hdot, hpointer⟩), GoType.form?]
  -- A tuple is not well named.
  | tuple => cases h

/-- A text begins as the text of a type can. -/
theorem starts_text {t : GoType} (h : t.wellNamed) (cs : List Char) : starts (t.text.toList ++ cs) := by
  cases t with
  -- Every word of a kind begins with a letter.
  | basic k => cases k <;> rfl
  | array => rw [GoType.toList_text_array]; rfl
  | slice => rw [GoType.toList_text_slice]; rfl
  | map => rw [GoType.toList_text_map]; rfl
  | struct => rw [GoType.toList_text_struct]; rfl
  | pointer => rw [GoType.toList_text_pointer]; rfl
  | interface methods => cases methods with
    | nil => rw [GoType.toList_text_interface_nil]; rfl
    | cons => rw [GoType.toList_text_interface_cons]; rfl
  | func signature =>
    obtain ⟨recv, params, results, variadic⟩ := signature
    rw [GoType.toList_text_func]
    rfl
  | chan => rw [GoType.toList_text_chan]; rfl
  -- A name begins with a character of a word, or it would have no dot.
  | named name =>
    have hname : isTypeName name := h
    simp only [isTypeName, Bool.and_eq_true] at hname
    rw [GoType.text]
    cases hcs : name.toList with
    | nil => simp [hcs, wordOf] at hname
    | cons c cs =>
      by_contra hc
      simp_all [starts, wordOf]
  | tuple => cases h

end TypeText

/-! ### Lists of types and of fields -/

/-- The texts of types are the texts one by one. -/
theorem typeTexts_eq (ts : List GoType) : typeTexts ts = ts.map GoType.text := by
  induction ts with
  | nil => rfl
  | cons t ts ih => rw [typeTexts, ih, List.map_cons]

theorem fieldTexts_eq (fs : List Field) : fieldTexts fs = fs.map Field.text := by
  induction fs with
  | nil => rfl
  | cons f fs ih => rw [fieldTexts, ih, List.map_cons]

/-- A type among well-named ones is well named. -/
theorem wellNamed_of_mem {ts : List GoType} (h : wellNamedTypes ts) {t : GoType} (ht : t ∈ ts) :
    t.wellNamed := by
  induction ht with
  | head => exact (Bool.and_eq_true_iff.mp h).1
  | tail _ _ ih => exact ih (Bool.and_eq_true_iff.mp h).2

theorem Field.wellNamed_of_mem {fs : List Field} (h : wellNamedFields fs) {f : Field} (hf : f ∈ fs) :
    f.wellNamed := by
  induction hf with
  | head => exact (Bool.and_eq_true_iff.mp h).1
  | tail _ _ ih => exact ih (Bool.and_eq_true_iff.mp h).2

/-- Lists whose members are identical as they are shown are identical as they are shown. -/
theorem identicalTypes_of_forall₂ {ss ts : List GoType}
    (h : List.Forall₂ (fun s t => s.shown.identical t.shown) ss ts) :
    identicalTypes (shownTypes ss) (shownTypes ts) := by
  induction h with
  | nil => rfl
  | cons h _ ih => exact Bool.and_eq_true_iff.mpr ⟨h, ih⟩

theorem identicalFields_of_forall₂ {fs gs : List Field}
    (h : List.Forall₂ (fun f g => f.shown.identical g.shown) fs gs) :
    identicalFields (shownFields fs) (shownFields gs) := by
  induction h with
  | nil => rfl
  | cons h _ ih => exact Bool.and_eq_true_iff.mpr ⟨h, ih⟩

/-- **Induction over the parts of a type.** What holds of every type whose parts it holds of holds of all. -/
theorem GoType.partsInduction {P : GoType → Prop} (basic : ∀ k, P (.basic k))
    (array : ∀ elem len, P elem → P (.array elem len)) (slice : ∀ elem, P elem → P (.slice elem))
    (map : ∀ key elem, P key → P elem → P (.map key elem))
    (struct : ∀ fields : List Field, (∀ f ∈ fields, P f.type) → P (.struct fields))
    (pointer : ∀ elem, P elem → P (.pointer elem)) (interface : ∀ methods, P (.interface methods))
    (func : ∀ signature : Signature, (∀ p ∈ signature.params, P p) →
      (∀ q ∈ signature.results, P q) → P (.func signature))
    (chan : ∀ elem, P elem → P (.chan elem))
    (named : ∀ name definition, P definition → P (.named name definition))
    (tuple : ∀ types : List GoType, (∀ t ∈ types, P t) → P (.tuple types)) (t : GoType) : P t :=
  -- The recursor of the nested type, with the motive for lists and signatures spelled out once and
  -- for all.
  @GoType.rec P (fun f => P f.type)
    (fun signature => (∀ p ∈ signature.params, P p) ∧ ∀ q ∈ signature.results, P q)
    (fun fields => ∀ f ∈ fields, P f.type) (fun types => ∀ t ∈ types, P t) (fun _ => True)
    basic array slice map struct pointer interface (fun signature h => func signature h.1 h.2) chan named
    tuple (fun _ _ _ _ h => h) (fun _ _ _ _ _ hparams hresults => ⟨hparams, hresults⟩)
    (fun _ hf => nomatch hf) (fun _ _ hfirst hrest => List.forall_mem_cons.mpr ⟨hfirst, hrest⟩)
    (fun _ ht => nomatch ht) (fun _ _ hfirst hrest => List.forall_mem_cons.mpr ⟨hfirst, hrest⟩)
    trivial (fun _ _ => trivial) t

/-! ### Reading a type off its text -/

/-- The text of a type tells it from every other type, up to what the text leaves out, and tells where the
type ends. -/
def GoType.IsTold (s : GoType) : Prop :=
  s.wellNamed → ∀ t : GoType, t.wellNamed → Tells s.text t.text (s.shown.identical t.shown)

namespace GoType.IsTold

variable {s t key elem : GoType} {len : Nat} {fields : List Field}

/-- A type that is told from its like, those of its form, is told from all. -/
theorem of_form (h : s.wellNamed → ∀ t : GoType, t.wellNamed → t.form? = s.form? →
    Tells s.text t.text (s.shown.identical t.shown)) : s.IsTold := by
  intro hs t ht r r' hr hr' heq
  have hform : t.form? = s.form? := by
    rw [← formOf_text hs hr, heq, formOf_text ht hr']
  exact h hs t ht hform hr hr' heq

/-- A kind is told by its word. -/
theorem basic (k : Kind) : (GoType.basic k).IsTold := by
  refine of_form fun _ t _ hform r r' hr hr' h => ?_
  cases t with
  | basic k' =>
    obtain ⟨rfl, rfl⟩ := spelling_append_inj hr hr' h
    exact ⟨by simp [shown, identical], rfl⟩
  | _ => cases hform

/-- The length ends with the bracket, so equal texts have equal lengths, and then equal elements. -/
theorem array (ih : elem.IsTold) : (GoType.array elem len).IsTold := by
  refine of_form fun hs t ht hform r r' hr hr' h => ?_
  cases t with
  | array elem' len' =>
    simp only [toList_text_array, List.cons_append, List.append_assoc, List.cons.injEq, true_and] at h
    obtain ⟨hlen, h⟩ := isWord_append_inj (isWord_toString len) (isWord_toString len') rfl rfl h
    obtain ⟨helem, rfl⟩ := ih hs elem' ht hr hr' (List.cons.inj h).2
    have hlen : len = len' := toString_injective (congrArg ("" ++ ·) hlen)
    exact ⟨by simp [shown, identical, hlen, helem], rfl⟩
  | _ => cases hform

/-- A slice is told by its element. -/
theorem slice (ih : elem.IsTold) : (GoType.slice elem).IsTold := by
  refine of_form fun hs t ht hform r r' hr hr' h => ?_
  cases t with
  | slice elem' =>
    simp only [toList_text_slice, List.cons_append, List.cons.injEq, true_and] at h
    exact ih hs elem' ht hr hr' h
  | _ => cases hform

/-- A pointer is told by what it points to. -/
theorem pointer (ih : elem.IsTold) : (GoType.pointer elem).IsTold := by
  refine of_form fun hs t ht hform r r' hr hr' h => ?_
  cases t with
  | pointer elem' =>
    simp only [toList_text_pointer, List.cons_append, List.cons.injEq, true_and] at h
    exact ih hs elem' ht hr hr' h
  | _ => cases hform

/-- A channel is told by its element. -/
theorem chan (ih : elem.IsTold) : (GoType.chan elem).IsTold := by
  refine of_form fun hs t ht hform r r' hr hr' h => ?_
  cases t with
  | chan elem' =>
    simp only [toList_text_chan, List.append_assoc, List.append_cancel_left_eq, List.cons_append,
      List.cons.injEq, true_and] at h
    exact ih hs elem' ht hr hr' h
  | _ => cases hform

/-- The key ends with the bracket that closes it, whatever brackets are in it. -/
theorem map (ihkey : key.IsTold) (ih : elem.IsTold) : (GoType.map key elem).IsTold := by
  refine of_form fun hs t ht hform r r' hr hr' h => ?_
  cases t with
  | map key' elem' =>
    simp only [toList_text_map, List.append_assoc, List.append_cancel_left_eq, List.cons_append,
      List.cons.injEq, true_and] at h
    obtain ⟨hskey, hs⟩ := Bool.and_eq_true_iff.mp hs
    obtain ⟨htkey, ht⟩ := Bool.and_eq_true_iff.mp ht
    obtain ⟨hkey, h⟩ := ihkey hskey key' htkey (.mark (by decide) _) (.mark (by decide) _) h
    obtain ⟨helem, rfl⟩ := ih hs elem' ht hr hr' (List.cons.inj h).2
    exact ⟨by simp [shown, identical, hkey, helem], rfl⟩
  | _ => cases hform

/-- A named type is told by its name alone. -/
theorem named (name : String) (definition : GoType) : (GoType.named name definition).IsTold := by
  refine of_form fun hs t ht hform r r' hr hr' h => ?_
  cases t with
  | named name' definition' =>
    obtain ⟨hname, rfl⟩ := closesFrom_append_inj (Bool.and_eq_true_iff.mp hs).2
      (Bool.and_eq_true_iff.mp ht).2 hr hr' h
    exact ⟨by simp [shown, identical, String.toList_injective hname], rfl⟩
  | _ => cases hform

/-- Methods are told by their names, in their order. -/
theorem interface (methods : List String) : (GoType.interface methods).IsTold := by
  refine of_form fun hs t ht hform r r' hr hr' h => ?_
  cases t with
  | interface methods' =>
    -- The name of a method is a word, and ends where no character of a word stands.
    have htells : ∀ m ∈ methods, ∀ m' ∈ methods', Tells m m' (m = m') := fun m hm m' hm' _ _ hr hr' =>
      isWord_append_inj (List.all_eq_true.mp hs m hm) (List.all_eq_true.mp ht m' hm') hr.wordOf_eq
        hr'.wordOf_eq
    -- With methods on one side only, the texts differ behind the brace.
    cases methods with
    | nil => cases methods' with
      | nil => exact ⟨by simp [shown, identical], List.append_cancel_left h⟩
      | cons => simp [toList_text_interface_nil, toList_text_interface_cons] at h
    | cons m ms => cases methods' with
      | nil => simp [toList_text_interface_nil, toList_text_interface_cons] at h
      | cons m' ms' =>
        simp only [toList_text_interface_cons, List.append_assoc, List.append_cancel_left_eq,
          List.cons_append, List.cons.injEq, true_and] at h
        rw [← List.map_id (m :: ms), ← List.map_id (m' :: ms')] at h
        obtain ⟨hmethods, rfl⟩ := intercalate_append_inj punctuates_fields htells (by simp) h
        rw [List.forall₂_eq_eq_eq] at hmethods
        exact ⟨by simp [shown, identical, hmethods], rfl⟩
  | _ => cases hform

end GoType.IsTold

/-! ### Fields -/

namespace Field

variable {name : String} {type : GoType} {hostTag : Option String}

/-- An embedded field is written as its type. -/
theorem text_embedded : (Field.mk name type true hostTag).text = type.text := by
  simp [text]

/-- Any other field is written with its name before its type. -/
theorem toList_text_named :
    (Field.mk name type false hostTag).text.toList = name.toList ++ ' ' :: type.text.toList := by
  simp [text]

end Field

namespace TypeText

variable {r r' : List Char}

/-- Behind the first word of a type there is no blank with a type behind it, unless the type is one of
channels or of an untyped kind. -/
theorem eq_chan_of_blank {t : GoType} (h : t.wellNamed) (htyped : ¬ t.isUntyped) (hr : Ends r)
    {word cs : List Char} (hcs : starts cs) (hword : wordOf t.text.toList = word)
    (heq : t.text.toList ++ r = word ++ ' ' :: cs) : word = "chan".toList := by
  subst hword
  -- Which types begin with such a word? Only channels, and kinds whose word has two parts.
  cases t with
  | basic k =>
    have hword : wordOf k.spelling.toList = k.spelling.toList := by
      cases k <;> first | rfl | exact absurd rfl htyped
    rw [GoType.text, hword] at heq
    obtain rfl := List.append_cancel_left heq
    -- Behind the whole word of a kind the text ends, so it does not go on with a type.
    exact absurd hcs hr.not_starts_of_blank
  | array | slice => simp [GoType.toList_text_array, GoType.toList_text_slice, wordOf, isDelimiter] at heq
  | pointer => simp [GoType.toList_text_pointer, wordOf, isDelimiter] at heq
  | map =>
    rw [GoType.toList_text_map] at heq
    simp [wordOf, isDelimiter] at heq
  | struct =>
    rw [GoType.toList_text_struct, wordOf_of_isWord (by decide) rfl, List.append_assoc] at heq
    -- Behind this word comes a brace, and no type begins with one.
    obtain rfl := (List.cons.inj (List.append_cancel_left heq)).2
    exact absurd hcs Bool.false_ne_true
  | interface methods => cases methods with
    | nil =>
      rw [GoType.toList_text_interface_nil, wordOf_of_isWord (by decide) rfl, List.append_assoc] at heq
      obtain rfl := (List.cons.inj (List.append_cancel_left heq)).2
      exact absurd hcs Bool.false_ne_true
    | cons =>
      rw [GoType.toList_text_interface_cons, wordOf_of_isWord (by decide) rfl, List.append_assoc] at heq
      obtain rfl := (List.cons.inj (List.append_cancel_left heq)).2
      exact absurd hcs Bool.false_ne_true
  | func signature =>
    obtain ⟨recv, params, results, variadic⟩ := signature
    rw [GoType.toList_text_func, wordOf_of_isWord (by decide) rfl, List.append_assoc] at heq
    -- Behind this word comes a bracket.
    exact absurd (List.cons.inj (List.append_cancel_left heq)).1 (by decide)
  | chan => rw [GoType.toList_text_chan, wordOf_of_isWord (by decide) rfl]
  | named name =>
    have hname : isTypeName name := h
    rw [GoType.text] at heq ⊢
    -- A name ends at a delimiter, and then it is a bracket of type arguments or the end.
    conv at heq => lhs; rw [← wordOf_append_behindWord name.toList]
    rw [List.append_assoc] at heq
    have heq := List.append_cancel_left heq
    obtain hnil | ⟨ds, hds⟩ := behindWord_of_closesFrom (Bool.and_eq_true_iff.mp hname).2
    · rw [hnil] at heq
      obtain rfl := heq
      exact absurd hcs hr.not_starts_of_blank
    · rw [hds] at heq
      exact absurd (List.cons.inj heq).1 (by decide)
  | tuple => cases h

/-- No type begins with a closing bracket. -/
theorem text_ne_close {t : GoType} (h : t.wellNamed) (cs ds : List Char) :
    t.text.toList ++ cs ≠ [')'] ++ ds := by
  intro heq
  have hstarts := starts_text h cs
  rw [heq] at hstarts
  exact absurd hstarts Bool.false_ne_true

/-- No field begins with the end of a struct. -/
theorem field_text_ne_close {f : Field} (h : f.wellNamed) (cs ds : List Char) :
    f.text.toList ++ cs ≠ [' ', '\x7d'] ++ ds := by
  obtain ⟨name, type, embedded, hostTag⟩ := f
  obtain ⟨htype, hname⟩ := Bool.and_eq_true_iff.mp h
  intro heq
  have hstarts := starts_text htype cs
  cases embedded with
  | true =>
    rw [Field.text_embedded] at heq
    rw [heq] at hstarts
    exact absurd hstarts Bool.false_ne_true
  | false =>
    -- The name would be empty, and the type would begin with a brace.
    rw [Field.toList_text_named, List.append_assoc] at heq
    have hempty : isWord "" := rfl
    obtain ⟨-, heq⟩ := isWord_append_inj (Bool.and_eq_true_iff.mp hname).1 hempty rfl rfl heq
    rw [show type.text.toList ++ cs = '\x7d' :: ds from (List.cons.inj heq).2] at hstarts
    exact absurd hstarts Bool.false_ne_true

/-- A field that is embedded is not written as one that is not. -/
theorem embedded_text_ne {type type' : GoType} {name : String} (htype : type.wellNamed)
    (htyped : ¬ type.isUntyped) (htype' : type'.wellNamed) (hname : isWord name) (hchan : name ≠ "chan")
    (hr : Ends r) : type.text.toList ++ r ≠ name.toList ++ ' ' :: (type'.text.toList ++ r') := by
  intro h
  have hword := congrArg wordOf h
  rw [wordOf_append _ hr, wordOf_of_isWord hname rfl] at hword
  exact hchan (String.toList_injective (eq_chan_of_blank htype htyped hr (starts_text htype' r') hword h))

/-- How many results there are, none, one or several, read off the text behind the parameters. -/
def resultsForm : List Char → Nat
  | ' ' :: '(' :: _ => 2
  | ' ' :: cs => if starts cs then 1 else 0
  | _ => 0

/-- How many results there are is told by how they begin: nothing, a type, or a bracket. -/
theorem resultsForm_text {qs : List GoType} (h : wellNamedTypes qs) (hr : Ends r) :
    resultsForm (resultsText qs ++ r) = min qs.length 2 := by
  match qs with
  -- Nothing: what follows is a mark or the end, and not the blank before a result.
  | [] =>
    cases hr with
    | nil => rfl
    | block => rfl
    | mark hc =>
      have : ∀ c ∈ [';', ',', ')', ']'], c ≠ ' ' := by decide
      simp [resultsText, resultsForm, this _ hc]
  -- One: it begins with a type, and not with a bracket.
  | [q] =>
    have hstarts := starts_text (wellNamed_of_mem h List.mem_cons_self) r
    rw [resultsText, List.cons_append, resultsForm, if_pos hstarts]
    · rfl
    · rintro cs hcs
      rw [hcs] at hstarts
      exact absurd hstarts Bool.false_ne_true
  | q :: q' :: qs =>
    simp [resultsText, resultsForm]

/-- Whether there are parameters is told by what stands before the closing bracket. -/
theorem eq_nil_iff_of_types {ss ts : List GoType} (hs : wellNamedTypes ss) (ht : wellNamedTypes ts)
    (h : (", ".intercalate (ss.map GoType.text)).toList ++ ([')'] ++ r) =
      (", ".intercalate (ts.map GoType.text)).toList ++ ([')'] ++ r')) : ss = [] ↔ ts = [] := by
  constructor
  · rintro rfl
    exact eq_nil_of_intercalate (fun t hmem => text_ne_close (wellNamed_of_mem ht hmem)) h.symm
  · rintro rfl
    exact eq_nil_of_intercalate (fun s hmem => text_ne_close (wellNamed_of_mem hs hmem)) h

end TypeText

namespace GoType.IsTold

/-- A field is told from others if its type is. -/
theorem field {f g : Field} (ih : f.type.IsTold) (hf : f.wellNamed) (hg : g.wellNamed) :
    Tells f.text g.text (f.shown.identical g.shown) := by
  obtain ⟨name, type, embedded, hostTag⟩ := f
  obtain ⟨name', type', embedded', hostTag'⟩ := g
  obtain ⟨htype, hf⟩ := Bool.and_eq_true_iff.mp hf
  obtain ⟨htype', hg⟩ := Bool.and_eq_true_iff.mp hg
  intro r r' hr hr' h
  -- Both are embedded or neither is; a named field is not read as an embedded one.
  cases embedded with
  | true => cases embedded' with
    | true =>
      simp only [Field.text_embedded] at h
      obtain ⟨hsame, rfl⟩ := ih htype type' htype' hr hr' h
      exact ⟨by simp [Field.shown, Field.identical, hsame], rfl⟩
    | false =>
      simp only [Field.text_embedded, Field.toList_text_named, List.append_assoc] at h
      obtain ⟨hname, hchan⟩ := Bool.and_eq_true_iff.mp hg
      -- Its name would be a word before a type, which is so for channels only, and no field may be
      -- called so.
      exact absurd h (embedded_text_ne htype (by simpa using hf) htype' hname (by simpa using hchan) hr)
  | false => cases embedded' with
    | true =>
      simp only [Field.text_embedded, Field.toList_text_named, List.append_assoc] at h
      obtain ⟨hname, hchan⟩ := Bool.and_eq_true_iff.mp hf
      exact absurd h.symm
        (embedded_text_ne htype' (by simpa using hg) htype hname (by simpa using hchan) hr')
    | false =>
      simp only [Field.toList_text_named, List.append_assoc] at h
      obtain ⟨hname, h⟩ := isWord_append_inj (Bool.and_eq_true_iff.mp hf).1
        (Bool.and_eq_true_iff.mp hg).1 rfl rfl h
      obtain ⟨hsame, rfl⟩ := ih htype type' htype' hr hr' (List.cons.inj h).2
      exact ⟨by simp [Field.shown, Field.identical, hname, hsame], rfl⟩

/-- A struct is told by its fields, in their order. -/
theorem struct (ih : ∀ f ∈ fields, f.type.IsTold) : (GoType.struct fields).IsTold := by
  refine of_form fun hs t ht hform r r' hr hr' h => ?_
  cases t with
  | struct fields' =>
    simp only [toList_text_struct, List.append_assoc, List.append_cancel_left_eq,
      List.cons_append, List.cons.injEq, true_and, fieldTexts_eq] at h
    have htells : ∀ f ∈ fields, ∀ g ∈ fields', Tells f.text g.text (f.shown.identical g.shown) :=
      fun f hf g hg => field (ih f hf) (Field.wellNamed_of_mem hs hf) (Field.wellNamed_of_mem ht hg)
    -- An empty list is told by the closing brace, which no field begins with.
    have hempty : fields = [] ↔ fields' = [] := by
      constructor
      · rintro rfl
        exact eq_nil_of_intercalate (fun g hg => field_text_ne_close (Field.wellNamed_of_mem ht hg)) h.symm
      · rintro rfl
        exact eq_nil_of_intercalate (fun f hf => field_text_ne_close (Field.wellNamed_of_mem hs hf)) h
    obtain ⟨hfields, rfl⟩ := intercalate_append_inj punctuates_fields htells hempty h
    exact ⟨identicalFields_of_forall₂ hfields, rfl⟩
  | _ => cases hform

end GoType.IsTold

namespace TypeText

/-- Results are told from others if each of them is: how many there are is told first. -/
theorem resultsText_append_inj {qs qs' : List GoType} (hwell : wellNamedTypes qs)
    (hwell' : wellNamedTypes qs')
    (htells : ∀ q ∈ qs, ∀ q' ∈ qs', Tells q.text q'.text (q.shown.identical q'.shown))
    (hr : Ends r) (hr' : Ends r') (h : resultsText qs ++ r = resultsText qs' ++ r') :
    List.Forall₂ (fun q q' => q.shown.identical q'.shown) qs qs' ∧ r = r' := by
  -- The number of results, up to two, is the same on both sides.
  have hcount : min qs.length 2 = min qs'.length 2 := by
    rw [← resultsForm_text hwell hr, h, resultsForm_text hwell' hr']
  match qs, qs' with
  | [], [] => exact ⟨.nil, h⟩
  | [q], [q'] =>
    obtain ⟨hsame, hrest⟩ := htells q List.mem_cons_self q' List.mem_cons_self hr hr' (List.cons.inj h).2
    exact ⟨.cons hsame .nil, hrest⟩
  | _ :: _ :: _, _ :: _ :: _ =>
    simp only [resultsText, Text.commaSeparated, typeTexts_eq, List.cons_append, List.append_assoc,
      List.cons.injEq, true_and] at h
    exact intercalate_append_inj punctuates_types htells (by simp) h
  -- The other pairs differ in that number.
  | [], _ :: _ | [_], [] | [_], _ :: _ :: _ | _ :: _ :: _, [] | _ :: _ :: _, [_] =>
    simp only [List.length_cons, List.length_nil] at hcount
    omega

end TypeText

namespace GoType.IsTold

/-- A function is told by its parameters and its results; whether it is variadic is not written. -/
theorem func {signature : Signature} (ihparams : ∀ p ∈ signature.params, p.IsTold)
    (ihresults : ∀ q ∈ signature.results, q.IsTold) : (GoType.func signature).IsTold := by
  refine of_form fun hs t ht hform r r' hr hr' h => ?_
  cases t with
  | func signature' =>
    obtain ⟨recv, params, results, variadic⟩ := signature
    obtain ⟨recv', params', results', variadic'⟩ := signature'
    obtain ⟨hsp, hsq⟩ := Bool.and_eq_true_iff.mp hs
    obtain ⟨htp, htq⟩ := Bool.and_eq_true_iff.mp ht
    have htellsParams : ∀ p ∈ params, ∀ p' ∈ params',
        Tells p.text p'.text (p.shown.identical p'.shown) :=
      fun p hp p' hp' => ihparams p hp (wellNamed_of_mem hsp hp) p' (wellNamed_of_mem htp hp')
    have htellsResults : ∀ q ∈ results, ∀ q' ∈ results',
        Tells q.text q'.text (q.shown.identical q'.shown) :=
      fun q hq q' hq' => ihresults q hq (wellNamed_of_mem hsq hq) q' (wellNamed_of_mem htq hq')
    simp only [toList_text_func, List.append_assoc, List.append_cancel_left_eq, List.cons_append,
      List.cons.injEq, true_and, Text.commaSeparated, typeTexts_eq] at h
    -- The parameters end before their closing bracket, and the results behind it are compared last.
    obtain ⟨hparams, h⟩ := intercalate_append_inj punctuates_types htellsParams
      (eq_nil_iff_of_types hsp htp h) h
    obtain ⟨hresults, rfl⟩ := resultsText_append_inj hsq htq htellsResults hr hr' h
    exact ⟨by simp [shown, identical, Signature.shown, Signature.identical,
      identicalTypes_of_forall₂ hparams, identicalTypes_of_forall₂ hresults], rfl⟩
  | _ => cases hform

/-- **Every text is read back.** -/
theorem all (s : GoType) : s.IsTold := by
  induction s using partsInduction with
  | basic k => exact basic k
  | array elem len ih => exact array ih
  | slice elem ih => exact slice ih
  | map key elem ihkey ih => exact map ihkey ih
  | struct fields ih => exact struct ih
  | pointer elem ih => exact pointer ih
  | interface methods => exact interface methods
  | func signature ihparams ihresults => exact func ihparams ihresults
  | chan elem ih => exact chan ih
  | named name definition => exact named name definition
  | tuple types => intro h; cases h

end GoType.IsTold

end GoLua
