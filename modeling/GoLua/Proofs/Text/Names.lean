import GoLua.Proofs.Text.Emitted
import Mathlib.Data.List.TakeWhile

/-!
# Names that a text reads

A text reads the names that stand in it as a whole: outside of its literals, in whichever quotes these
are, and with no further character of a name on either side (`ReadsName`).

Of all that emitted text is put together from, only generated names that are known and what the program
brings in can be the name of a value, and no new name arises where two texts meet (`HasName.append`).
So, if the names of the program are its own (`Vocabulary.own`), all values that a text reads are known
(`Emitted.hasOnly`).
-/

namespace GoLua

open Lua

/-! ### Whole names -/

/-- A name stands in a text as a whole. -/
def HasName (name text : List Char) : Prop :=
  ∃ before after, text = before ++ name ++ after ∧ before.getLast?.any isNameChar = false ∧
    after.head?.any isNameChar = false

/-- A name stands in a text as a whole, outside of its literals. -/
def ReadsName (text name : String) : Prop :=
  ∃ out, outsideStrings text.toList = some out ∧ HasName name.toList out

namespace HasName

variable {name text t u : List Char}

theorem subset (h : HasName name text) : name ⊆ text := by
  obtain ⟨before, after, rfl, -, -⟩ := h
  exact fun c hc => List.mem_append_left _ (List.mem_append_right _ hc)

/-- A text of characters of names is one name. -/
theorem eq_of_isNameChar (h : HasName name text) (htext : ∀ c ∈ text, isNameChar c) :
    name = text := by
  obtain ⟨before, after, rfl, hbefore, hafter⟩ := h
  -- A character before or behind the name would be one of a word, and so part of the name.
  have hfront : before = [] := by
    cases hlast : before.getLast? with
    | none => exact List.getLast?_eq_none_iff.mp hlast
    | some c =>
      have hc := htext c (by simp [List.mem_of_getLast? hlast])
      rw [hlast, Option.any_some, hc] at hbefore
      cases hbefore
  have hback : after = [] := by
    cases hhead : after.head? with
    | none => exact List.head?_eq_none_iff.mp hhead
    | some c =>
      have hc := htext c (by simp [List.mem_of_mem_head? hhead])
      rw [hhead, Option.any_some, hc] at hafter
      cases hafter
  rw [hfront, hback, List.nil_append, List.append_nil]

/-- No name arises where two texts meet. -/
theorem append (h : HasName name (t ++ u)) (hname : ∀ c ∈ name, isNameChar c) (hapart : apart t u) :
    HasName name t ∨ HasName name u := by
  obtain ⟨before, after, heq, hbefore, hafter⟩ := h
  rw [List.append_assoc] at heq
  rcases List.append_eq_append_iff.mp heq with ⟨mid, rfl, rfl⟩ | ⟨mid, rfl, hmid⟩
  · -- The name is in the text behind.
    refine .inr ⟨mid, after, (List.append_assoc ..).symm, ?_, hafter⟩
    cases hlast : mid.getLast? with
    | none => rfl
    | some c => rwa [List.getLast?_append, hlast, Option.some_or] at hbefore
  rcases List.append_eq_append_iff.mp hmid with ⟨rest, rfl, rfl⟩ | ⟨rest, rfl, rfl⟩
  · -- The name is in the text in front.
    refine .inl ⟨before, rest, (List.append_assoc ..).symm, hbefore, ?_⟩
    cases hhead : rest.head? with
    | none => rfl
    | some c => rwa [List.head?_append, hhead, Option.some_or] at hafter
  -- The name would reach from one text to the other, which are apart.
  cases hlast : mid.getLast? with
  | none =>
    obtain rfl := List.getLast?_eq_none_iff.mp hlast
    exact .inr ⟨[], after, rfl, rfl, hafter⟩
  | some c =>
    cases rest with
    | nil => exact .inl ⟨before, [], by simp, hbefore, rfl⟩
    | cons d rest =>
      have hc := hname c (List.mem_append_left _ (List.mem_of_getLast? hlast))
      have hd := hname d (by simp)
      simp [apart, List.getLast?_append, hlast, hc, hd] at hapart

/-- A name is not changed by what is behind the text. -/
theorem append_of_head (h : HasName name t) (hu : u.head?.any isNameChar = false) :
    HasName name (t ++ u) := by
  obtain ⟨before, after, rfl, hbefore, hafter⟩ := h
  refine ⟨before, after ++ u, List.append_assoc .., hbefore, ?_⟩
  rw [List.head?_append]
  cases hhead : after.head? with
  | none => exact hu
  | some c => rwa [hhead] at hafter

/-- A text of other characters has no names. -/
theorem not_of_forall (hne : name ≠ []) (hname : ∀ c ∈ name, isNameChar c)
    (htext : ∀ c ∈ text, isNameChar c = false) : ¬ HasName name text := by
  intro h
  obtain ⟨c, hc⟩ := List.exists_mem_of_ne_nil name hne
  have hplain := htext c (h.subset hc)
  rw [hname c hc] at hplain
  cases hplain

end HasName

/-! ### Names of values -/

section

variable {value : List Char}

/-- A name of a value is its stem and digits. -/
theorem exists_digits_of_isValueName (h : isValueName value) :
    ∃ digits, value = stem value ++ digits ∧ digits ≠ [] ∧ ∀ c ∈ digits, c.isDigit := by
  have hsplit : value = stem value ++ (value.reverse.takeWhile Char.isDigit).reverse := by
    rw [stem, ← List.reverse_append, List.takeWhile_append_dropWhile, List.reverse_reverse]
  refine ⟨_, hsplit, fun hnil => ?_, fun c hc => ?_⟩
  · rw [hnil, List.append_nil] at hsplit
    exact bne_iff_ne.mp (Bool.and_eq_true_iff.mp h).2 hsplit.symm
  · exact List.mem_takeWhile_imp (List.mem_reverse.mp hc)

/-- The name of a value is a word. -/
theorem isNameChar_of_isValueName (h : isValueName value) : ∀ c ∈ value, isNameChar c := by
  have hhints : ∀ hint ∈ valueHints, ∀ c ∈ hint.toList, isNameChar c := by decide
  obtain ⟨hint, hhint, hstem⟩ := List.any_eq_true.mp (Bool.and_eq_true_iff.mp h).1
  obtain ⟨digits, heq, -, hdigits⟩ := exists_digits_of_isValueName h
  intro c hc
  rw [heq, ← eq_of_beq hstem] at hc
  exact (List.mem_append.mp hc).elim (hhints hint hhint c) fun hc => isNameChar_of_isDigit (hdigits c hc)

/-- A name of a value ends in a digit. -/
theorem getLast?_of_isValueName (h : isValueName value) :
    ∃ d, value.getLast? = some d ∧ d.isDigit := by
  obtain ⟨digits, heq, hne, hdigits⟩ := exists_digits_of_isValueName h
  refine ⟨digits.getLast hne, ?_, hdigits _ (List.getLast_mem hne)⟩
  rw [heq, List.getLast?_append, List.getLast?_eq_some_getLast hne, Option.some_or]

theorem ne_nil_of_isValueName (h : isValueName value) : value ≠ [] :=
  List.ne_nil_of_mem (mem_of_isValueName h)

end

/-! ### A program with names of its own -/

/-- A name that can stand in code, and in which no name of a value stands. -/
structure IsOwnName (name : String) : Prop where
  quiet : IsQuiet name.toList
  unquoted : '\x27' ∉ name.toList
  own : ∀ value, isValueName value → ¬ HasName value name.toList

/-- Code whose literals are closed, in whichever quotes they are, and outside of which no name of a value
stands. What is in a long string or in a comment is asked the same. -/
structure IsOwnCode (code : String) : Prop where
  closed : (outsideStrings code.toList).isSome
  own : ∀ value : String, isValueName value.toList → ¬ ReadsName code value

namespace IsOwnName

variable {name : String}

/-- A name that Lua can spell is no other name. -/
theorem of_isNameChar (h : ∀ c ∈ name.toList, isNameChar c) (hvalue : isValueName name.toList = false) :
    IsOwnName name := by
  refine ⟨fun c hc => ⟨?_, ?_⟩, fun hmem => ?_, fun value hval hhas => ?_⟩
  · rintro rfl
    cases h _ hc
  · rintro rfl
    cases h _ hc
  · cases h _ hmem
  · rw [hhas.eq_of_isNameChar h, hvalue] at hval
    cases hval

/-- A reserved word with an underscore is one name, and not that of a value. -/
theorem safeName (h : IsOwnName name) : IsOwnName (safeName name) := by
  unfold Lua.safeName
  split
  · next hkeyword =>
    -- Only keywords change, and their new last character is no digit as those of values have.
    have hwords : ∀ word ∈ keywords, ∀ c ∈ word.toList, isNameChar c := by decide
    have hchars : ∀ c ∈ name.toList ++ ['_'], isNameChar c := by
      simp only [List.forall_mem_append, List.forall_mem_singleton]
      exact ⟨hwords name (List.contains_iff_mem.mp hkeyword), rfl⟩
    have htext : (name ++ "_").toList = name.toList ++ ['_'] := String.toList_append
    refine ⟨htext ▸ h.quiet.append (by decide), ?_, fun value hvalue hhas => ?_⟩
    · rw [htext]
      exact List.not_mem_append h.unquoted (by decide)
    rw [htext] at hhas
    obtain ⟨d, hlast, hd⟩ := getLast?_of_isValueName hvalue
    rw [hhas.eq_of_isNameChar hchars, List.getLast?_concat, Option.some.injEq] at hlast
    rw [← hlast] at hd
    cases hd
  · exact h

/-- Without the index of its box, a name is still an own one. -/
theorem dropBoxIndex (h : IsOwnName name) : IsOwnName (dropBoxIndex name) := by
  unfold GoLua.dropBoxIndex
  split
  · next r hr =>
    have hname : name.toList = r.reverse ++ ['[', '0', ']'] := by
      rw [← List.reverse_reverse name.toList, hr]
      simp
    refine ⟨?_, ?_, fun value hvalue hhas => ?_⟩
    · rw [String.toList_ofList]
      exact fun c hc => h.quiet c (hname ▸ List.mem_append_left _ hc)
    · rw [String.toList_ofList]
      exact fun hmem => h.unquoted (hname ▸ List.mem_append_left _ hmem)
    · rw [String.toList_ofList] at hhas
      exact h.own value hvalue (hname ▸ hhas.append_of_head rfl)
  · exact h

end IsOwnName

/-- **A program with names of its own.** Neither its names nor its code can be taken for the name of a
value. -/
def Vocabulary.own : Vocabulary where
  name := IsOwnName
  code := IsOwnCode
  strict := True
  failure _ := True
  safe := IsOwnName.safeName
  unboxed := IsOwnName.dropBoxIndex
  spelled h := absurd trivial h
  quiet := fun _ _ h => h.quiet
  failing _ := trivial

/-- Outside of its literals a text has no names of values but those that are known. -/
def HasOnly (known : String → Prop) (text : List Char) : Prop :=
  ∃ out, outsideStrings text = some out ∧
    ∀ value : String, isValueName value.toList → HasName value.toList out → known value

namespace HasOnly

variable {known : String → Prop} {t u : List Char}

/-- No text of a program with names of its own has the name of a value. -/
theorem of_none {out : List Char} (hout : outsideStrings t = some out)
    (hnone : ∀ value, isValueName value → ¬ HasName value out) : HasOnly known t :=
  ⟨out, hout, fun value hvalue h => absurd h (hnone value.toList hvalue)⟩

/-- A text without characters of names. -/
theorem of_other {out : List Char} (hout : outsideStrings t = some out)
    (hother : ∀ c ∈ out, isNameChar c = false) : HasOnly known t :=
  .of_none hout fun _ hvalue => HasName.not_of_forall (ne_nil_of_isValueName hvalue)
    (isNameChar_of_isValueName hvalue) hother

/-- A text of characters of names. -/
theorem of_name (ht : ∀ c ∈ t, isNameChar c)
    (hknown : ∀ value : String, isValueName value.toList → value.toList = t → known value) :
    HasOnly known t := by
  refine ⟨t, outsideStrings_of_not_mem (fun hquote => ?_) fun hquote => ?_, fun value hvalue h =>
    hknown value hvalue (h.eq_of_isNameChar ht)⟩
  · cases ht _ hquote
  · cases ht _ hquote

/-- Two texts side by side have no new name if they do not meet in one. -/
theorem append (ht : HasOnly known t) (hu : HasOnly known u) (hapart : apart t u) :
    HasOnly known (t ++ u) := by
  obtain ⟨out, hout, hknown⟩ := ht
  obtain ⟨out', hout', hknown'⟩ := hu
  refine ⟨out ++ out', outsideOf_append hout hout', fun value hvalue h => ?_⟩
  -- What is outside of literals starts and ends like the text.
  have hboth : apart out out' := by
    rwa [apart, getLast?_outsideOf hout, head?_outsideOf hout']
  exact (h.append (isNameChar_of_isValueName hvalue) hboth).elim (hknown value hvalue)
    (hknown' value hvalue)

/-- Fixed text between two others, which neither of them touches with a name. -/
theorem join {mid : List Char} (ht : HasOnly known t) (hmid : HasOnly known mid)
    (hu : HasOnly known u) (hne : mid ≠ []) (hhead : mid.head?.any isNameChar = false)
    (hlast : mid.getLast?.any isNameChar = false) : HasOnly known (t ++ mid ++ u) := by
  refine (ht.append hmid (apart_of_head hhead t)).append hu (apart_of_last ?_ u)
  rw [List.getLast?_append, List.getLast?_eq_some_getLast hne, Option.some_or]
  rwa [List.getLast?_eq_some_getLast hne] at hlast

/-- Each name of a value has an underscore. -/
theorem of_no_underscore (h : ∀ c ∈ t, c ≠ '"' ∧ c ≠ '\x27' ∧ c ≠ '_') : HasOnly known t :=
  .of_none (outsideStrings_of_not_mem (fun hmem => (h _ hmem).1 rfl) fun hmem => (h _ hmem).2.1 rfl)
    fun _ hvalue hhas => (h _ (hhas.subset (mem_of_isValueName hvalue))).2.2 rfl

theorem ownName {name : String} (h : IsOwnName name) : HasOnly known name.toList :=
  .of_none (outsideStrings_of_not_mem (fun hquote => (h.quiet _ hquote).1 rfl) h.unquoted) h.own

theorem ownCode {code : String} (h : IsOwnCode code) : HasOnly known code.toList := by
  obtain ⟨out, hout⟩ := Option.isSome_iff_exists.mp h.closed
  exact ⟨out, hout, fun value hvalue hhas => absurd ⟨out, hout, hhas⟩ (h.own value hvalue)⟩

theorem ownNames {names : List String} (h : ∀ name ∈ names, IsOwnName name) :
    HasOnly known (Text.commaSeparated names).toList := by
  refine Text.intercalate_induction (P := fun t => HasOnly known t.toList)
    (of_no_underscore fun _ h => (nomatch h)) (fun s t hs ht => ?_) fun name hname => ownName (h name hname)
  rw [String.toList_append, String.toList_append]
  exact hs.join (of_no_underscore (by decide)) ht (by decide) rfl rfl

end HasOnly

/-- **Emitted text has no other values than those that are known**, if the program has names of its
own. -/
theorem Emitted.hasOnly {known : String → Prop} {flat : Bool} {t : List Char}
    (h : Emitted .own known flat t) : HasOnly known t := by
  have hone {c : Char} (hquote : c ≠ '"') (hsingle : c ≠ '\x27') (hc : isNameChar c = false) :
      HasOnly known [c] :=
    .of_other (outsideStrings_of_not_mem (by simpa using hquote.symm) (by simpa using hsingle.symm))
      (List.forall_mem_singleton.mpr hc)
  induction h with
  | blank => exact hone (by decide) (by decide) rfl
  | sign h =>
    have hsign := h
    simp only [isSign, Bool.and_eq_true, bne_iff_ne] at hsign
    exact hone hsign.1.2 hsign.2 (not_isNameChar_of_isSign h)
  | word h hplain =>
    refine .of_name (List.all_eq_true.mp h) fun value hval heq => ?_
    rw [← heq, isTelling, hval] at hplain
    cases hplain
  | number h =>
    -- No figure is an underscore.
    refine .of_no_underscore fun c hc => ⟨?_, ?_, ?_⟩
    all_goals
      rintro rfl
      cases List.all_eq_true.mp h _ hc
  | known h hw _ => exact .of_name hw fun value _ heq => String.toList_injective heq ▸ h
  | name h _ => exact .ownName h
  | package h => exact HasOnly.append (.ownName h) (.of_no_underscore (by decide)) (apart_of_head rfl _)
  | box h => exact .ownName h.safeName.dropBoxIndex
  | code h => exact .ownCode h
  | literal h => exact .of_other (h _ rfl) (by decide)
  | quoted h _ =>
    have hword : ∀ c ∈ _, c ≠ '\x27' ∧ c ≠ '\\' := fun c hc =>
      ⟨fun heq => (by subst heq; cases List.all_eq_true.mp h _ hc),
        fun heq => (by subst heq; cases List.all_eq_true.mp h _ hc)⟩
    exact .of_other (outsideOf_quoted hword rfl) (by decide)
  | declaration _ _ ih =>
    exact HasOnly.append (.of_no_underscore (by decide)) ih (apart_of_last rfl _)
  | thunk => exact .of_no_underscore (by decide)
  | parameter _ _ ih =>
    refine HasOnly.append (HasOnly.append (.of_no_underscore (by decide)) ih (apart_of_last rfl _)) ?_
      (apart_of_head rfl _)
    exact .of_no_underscore (by decide)
  | closure hcode hnames =>
    have hlist : HasOnly known _ := .ownNames hnames
    have hfront := HasOnly.append (.of_no_underscore (t := "(function(".toList) (by decide)) hlist
      (apart_of_last rfl _)
    have hbody := hfront.join (.of_no_underscore (t := ") return ".toList) (by decide))
      (.ownCode hcode) (by decide) rfl rfl
    have hcalled := hbody.join (.of_no_underscore (t := " end)(".toList) (by decide)) hlist (by decide)
      rfl rfl
    simp only [String.toList_append]
    exact hcalled.append (.of_no_underscore (by decide)) (apart_of_head rfl _)
  | @bracket o c t hpair _ ih =>
    obtain ⟨hopening, hclosing⟩ := isOpening_of_isPair hpair
    have ho := not_isNameChar_of_isOpening hopening
    have hc := not_isNameChar_of_isClosing hclosing
    have hfront : HasOnly known [o] := hone (by rintro rfl; cases hopening) (by rintro rfl; cases hopening) ho
    have hback : HasOnly known [c] :=
      hone (by rintro rfl; cases hclosing) (by rintro rfl; cases hclosing) hc
    have hinner : HasOnly known ([o] ++ t) := hfront.append ih (apart_of_last (by simpa using ho) t)
    exact hinner.append hback (apart_of_head (by simpa using hc) _)
  | append _ _ h ih ih' => exact ih.append ih' h
  | exposed _ ih => exact ih

end GoLua
