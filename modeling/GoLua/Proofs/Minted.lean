import GoLua.Lower.Host.Method
import GoLua.Lower.Object

/-!
# Names that lowering mints

A generated name is a hint with the number that the counter has reached. All hints share the counter,
so no number is handed out twice; but that alone does not keep two names apart, since a hint that
ends in a digit could take over a part of the number. No hint does (`isHint`), and then a name can be
read back (`minted_injective`).

A hint has only characters of names. So a generated name is never taken for a property of an object,
which is reached by a dot or by an index (`IsPropertyOf`).
-/

namespace GoLua

open Lua

/-- What a generated name may start with: characters of names, with no digit at the end. -/
def isHint (hint : String) : Bool :=
  hint.toList.all isNameChar && !hint.toList.getLast?.any Char.isDigit

theorem isNameChar_of_isDigit {c : Char} (h : c.isDigit) : isNameChar c := by
  simp [isNameChar, Char.isAlphanum, h]

theorem isDigit_of_mem_toString {n : Nat} {c : Char} (h : c ∈ (toString n).toList) : c.isDigit := by
  rw [Nat.toString_eq_repr, Nat.toList_repr] at h
  exact Nat.isDigit_of_mem_toDigits (by decide) (by decide) h

/-- The characters of a key can stand in names. -/
theorem isNameChar_of_mem_accessorKey {name : String} {c : Char}
    (h : c ∈ (accessorKey name).toList) : isNameChar c := by
  rw [accessorKey, String.toList_ofList, List.mem_map] at h
  obtain ⟨d, -, rfl⟩ := h
  split
  · assumption
  · decide

/-- The boxes of accessors have names of their own. -/
theorem isHint_accessorKey (name : String) : isHint (accessorKey name ++ "_ptr") := by
  have hall : (accessorKey name).toList.all isNameChar :=
    List.all_eq_true.mpr fun _ => isNameChar_of_mem_accessorKey
  have hlast : ((accessorKey name).toList ++ ['_', 'p', 't', 'r']).getLast? = some 'r' := by simp
  rw [isHint, String.toList_append, List.all_append, hall]
  change (true && !((accessorKey name).toList ++ ['_', 'p', 't', 'r']).getLast?.any Char.isDigit) = _
  rw [hlast]
  rfl

/-- Names with the same hint are told apart by their numbers. -/
theorem toString_injective {hint : String} {k l : Nat}
    (h : hint ++ toString k = hint ++ toString l) : k = l := by
  -- Digits are read back as the number that they were written for.
  have hdigits := congrArg String.toList ((String.append_right_inj hint).mp h)
  rw [Nat.toString_eq_repr, Nat.toString_eq_repr, Nat.toList_repr, Nat.toList_repr] at hdigits
  rw [← Nat.ofDigitChars_ten_toDigits (n := k), hdigits, Nat.ofDigitChars_ten_toDigits]

/-- A name without the digits at its end. -/
def stem (name : List Char) : List Char :=
  (name.reverse.dropWhile Char.isDigit).reverse

/-- No digit is taken from a hint. -/
theorem stem_append {hint : String} (h : isHint hint) {digits : List Char}
    (hdigits : ∀ c ∈ digits, c.isDigit) : stem (hint.toList ++ digits) = hint.toList := by
  have hall : ∀ c ∈ digits.reverse, c.isDigit := fun c hc => hdigits c (List.mem_reverse.mp hc)
  rw [stem, List.reverse_append, List.dropWhile_append_of_pos hall]
  cases hrev : hint.toList.reverse with
  | nil => exact (List.reverse_eq_nil_iff.mp hrev).symm
  | cons c cs =>
    have hlast : hint.toList.getLast? = some c := by
      rw [← List.head?_reverse, hrev, List.head?_cons]
    have hc : c.isDigit = false := by simpa [isHint, hlast] using (Bool.and_eq_true_iff.mp h).2
    rw [List.dropWhile_cons_of_neg (by simp [hc]), ← hrev, List.reverse_reverse]

/-- The hint of a generated name is its stem. -/
theorem stem_minted {hint : String} (h : isHint hint) (n : Nat) :
    stem (hint ++ toString n).toList = hint.toList := by
  rw [String.toList_append]
  exact stem_append h fun _ => isDigit_of_mem_toString

/-- **Reading a name back.** The hint and the number of a generated name can be told from it. -/
theorem minted_injective {hint hint' : String} {n n' : Nat} (h : isHint hint) (h' : isHint hint')
    (heq : hint ++ toString n = hint' ++ toString n') : hint = hint' ∧ n = n' := by
  have hstem := stem_minted h n
  rw [heq, stem_minted h' n'] at hstem
  obtain rfl : hint = hint' := String.toList_injective hstem.symm
  exact ⟨rfl, toString_injective heq⟩

/-- A minted name is a word. -/
theorem minted_named {hint : String} (h : isHint hint) (n : Nat) :
    ∀ c ∈ (hint ++ toString n).toList, isNameChar c := by
  intro c hc
  rw [String.toList_append] at hc
  rcases List.mem_append.mp hc with hc | hc
  · exact List.all_eq_true.mp (Bool.and_eq_true_iff.mp h).1 c hc
  · exact isNameChar_of_isDigit (isDigit_of_mem_toString hc)

/-! ### Names of values -/

/-- The hints of the temporaries that hold values: results of calls, of connectives, and the parts of
sequences that had to be evaluated early. -/
def valueHints : List String :=
  ["_r", "_v", "_k", "_arg", "_tuple"]

/-- Whether a text is one of those hints with digits behind it. -/
def isValueName (name : List Char) : Bool :=
  valueHints.any (·.toList == stem name) && stem name != name

/-- A generated name is the name of a value by its hint alone. -/
theorem isValueName_minted {hint : String} (h : isHint hint) (n : Nat) :
    isValueName (hint ++ toString n).toList ↔ hint ∈ valueHints := by
  rw [isValueName, stem_minted h n]
  simp [String.toList_inj]

/-- A name of a value starts with the hint. -/
theorem exists_hint_of_isValueName {name : List Char} (h : isValueName name) :
    ∃ hint ∈ valueHints, hint.toList <+: name := by
  obtain ⟨hint, hhint, hstem⟩ := List.any_eq_true.mp (Bool.and_eq_true_iff.mp h).1
  refine ⟨hint, hhint, ?_⟩
  rw [eq_of_beq hstem, stem, ← List.reverse_suffix, List.reverse_reverse]
  exact List.dropWhile_suffix _

/-- A name of a value has an underscore in it. -/
theorem mem_of_isValueName {name : List Char} (h : isValueName name) : '_' ∈ name := by
  have hall : ∀ hint ∈ valueHints, '_' ∈ hint.toList := by decide
  obtain ⟨hint, hhint, hprefix⟩ := exists_hint_of_isValueName h
  exact hprefix.subset (hall hint hhint)

/-! ### Generated names -/

/-- What stands in front of the number in the names that lowering makes: a hint of values, that of the
locals of templates, and all that ends like a pointer or the box of an accessor. -/
def isGeneratedStem (hint : List Char) : Bool :=
  valueHints.any (·.toList == hint) || hint == ['_', 't'] || ['_', 'p', 't', 'r'].isSuffixOf hint

/-- Whether a name is of the form of those that lowering makes: one of their hints with digits behind
it, or the one name without digits, that of what the setter of an accessor takes. -/
def isGenerated (name : List Char) : Bool :=
  name.all isNameChar && (name == ['_', 'v'] || isGeneratedStem (stem name) && stem name != name)

theorem isNameChar_of_isGenerated {name : List Char} (h : isGenerated name) :
    ∀ c ∈ name, isNameChar c :=
  List.all_eq_true.mp (Bool.and_eq_true_iff.mp h).1

/-- Whether lowering makes names of a hint. -/
def isGeneratedHint (hint : String) : Bool :=
  isHint hint && isGeneratedStem hint.toList

theorem isHint_of_isGeneratedHint {hint : String} (h : isGeneratedHint hint) : isHint hint :=
  (Bool.and_eq_true_iff.mp h).1

theorem isGeneratedHint_accessorKey (name : String) :
    isGeneratedHint (accessorKey name ++ "_ptr") := by
  simp [isGeneratedHint, isHint_accessorKey, isGeneratedStem]

theorem toList_toString_ne_nil (n : Nat) : (toString n).toList ≠ [] := by
  rw [Nat.toString_eq_repr, Nat.toList_repr]
  exact List.ne_nil_of_length_pos Nat.length_toDigits_pos

/-- A name minted from a generated hint is recognized as generated. -/
theorem isGenerated_minted {hint : String} (h : isGeneratedHint hint) (n : Nat) :
    isGenerated (hint ++ toString n).toList := by
  obtain ⟨hhint, hstem⟩ := Bool.and_eq_true_iff.mp h
  have hne : hint.toList ≠ (hint ++ toString n).toList := fun heq =>
    toList_toString_ne_nil n (List.self_eq_append_right.mp (heq.trans String.toList_append))
  rw [isGenerated, stem_minted hhint, hstem, Bool.true_and, Bool.and_eq_true, Bool.or_eq_true,
    bne_iff_ne]
  exact ⟨List.all_eq_true.mpr (minted_named hhint n), .inr hne⟩

/-! ### Properties -/

/-- The text of a property of an object, which is reached by its name or by an index. -/
inductive IsPropertyOf (object : String) : String → Prop where
  | named {name : String} (h : isName name) : IsPropertyOf object (object ++ "." ++ name)
  | indexed (index : String) : IsPropertyOf object (object ++ "[" ++ index ++ "]")

/-- The text of a property of some object. -/
def IsProperty (text : String) : Prop :=
  ∃ object, IsPropertyOf object text

/-- A property is no name. -/
theorem IsProperty.exists_not_isNameChar {text : String} (h : IsProperty text) :
    ∃ c ∈ text.toList, isNameChar c = false := by
  obtain ⟨object, h⟩ := h
  cases h with
  | named h => exact ⟨'.', by simp [String.toList_append], by decide⟩
  | indexed index => exact ⟨'[', by simp [String.toList_append], by decide⟩

/-- An index by a value of the program is an index. -/
theorem isPropertyOf_propertyIndex (object key : String) :
    IsPropertyOf object (object ++ Lower.propertyIndex key) := by
  have htext : object ++ Lower.propertyIndex key =
      object ++ "[" ++ (Support.externalize ++ "(" ++ key ++ ", \"string\")") ++ "]" := by
    simp only [Lower.propertyIndex, ← String.toList_inj, String.toList_append, List.append_assoc]
    rfl
  rw [htext]
  exact .indexed _

end GoLua
