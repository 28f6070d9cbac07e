import GoLua.Proofs.SourceOrder.Unmoved
import GoLua.Proofs.ZeroValue

/-!
# The fields of a struct literal

However a struct literal is written, what is emitted lists every field of the type once, in the order of
the declaration. This module says what each field holds, and when a literal is rejected
(`composite_fillsFields`).

* A literal with keys starts from the zero values of all fields and puts the texts of its elements over
  them, so a field holds the text of the last element that is keyed with its name (`FieldsHold`). A
  literal without elements is of this sort.
* A literal without keys has one element for each field, in order.
* An element without a key among elements with keys, a key that is no field of the type, and a number of
  elements that is not that of the fields are all found before anything is lowered.

An element finds its field by name. What is not keyed is looked up under the empty name, so fields must
have names; and where two fields had one name, the second could not be reached.
-/

namespace GoLua

open Lua

/-- The name that an element of a struct literal is keyed with. -/
def Element.keyName? (element : Element) : Option String :=
  element.key.bind Expr.identName?

namespace Lua

/-- An instance of a struct, with the names of its fields and their values. -/
def instanceText (type : GoType) (entries : List (String × String)) : String :=
  let entry (e : String × String) := "[" ++ quote e.1 ++ "]=" ++ e.2
  callText Support.newInstance
    [quote type.text, Text.braced (Text.commaSeparated (entries.map entry))]

/-- The text of a struct is that of an instance with its names and values. -/
theorem structText_eq_instanceText (type : GoType) (names values : List String) :
    structText type names values = instanceText type (names.zip values) := by
  rw [structText, instanceText, ← List.map_uncurry_zip_eq_zipWith]
  rfl

end Lua

namespace Lower

/-! ### Names of fields -/

/-- An element is keyed with the name of a field. -/
structure NamesField (fields : List Field) (element : Element) (field : Field) : Prop where
  mem : field ∈ fields
  name : element.keyName? = some field.name

/-- How elements with keys have found their fields, and the slots of these. -/
inductive Keyed (fields : List Field) : List Element → List Field → List Slotted → Prop
  | nil : Keyed fields [] [] []
  | cons {slot : Nat} {element : Element} {field : Field} {elements : List Element}
      {named : List Field} {values : List Slotted} (hfield : fields[slot]? = some field)
      (hname : element.keyName? = some field.name) (later : Keyed fields elements named values) :
      Keyed fields (element :: elements) (field :: named)
        (⟨slot, element.value, field.type⟩ :: values)

section

variable {env : Env} {s s' : FunctionState} {type : GoType} {fields named : List Field}
  {field : Field} {element : Element} {elements : List Element} {values : List Slotted}

namespace Keyed

/-- Each element names the field it fills. -/
theorem namesField (h : Keyed fields elements named values) :
    List.Forall₂ (NamesField fields) elements named := by
  induction h with
  | nil => exact .nil
  | cons hfield hname _ ih => exact .cons ⟨List.mem_of_getElem? hfield, hname⟩ ih

/-- The texts for the slots are those of the elements, each as what its field holds. -/
theorem map_slotText (h : Keyed fields elements named values) (self : Lowering) :
    values.map (slotText self) = (elements.zip named).map (fieldPart self) := by
  induction h with
  | nil => rfl
  | cons _ _ _ ih => exact congrArg (_ :: ·) ih

/-- There is a value for each element. -/
theorem length_eq (h : Keyed fields elements named values) : values.length = elements.length := by
  induction h with
  | nil => rfl
  | cons _ _ _ ih => exact congrArg Nat.succ ih

/-- A slot is that of the field that its element is keyed with. -/
theorem getElem? (h : Keyed fields elements named values) {i : Nat}
    (helement : elements[i]? = some element) :
    ∃ v field, values[i]? = some v ∧ fields[v.slot]? = some field ∧
      element.keyName? = some field.name := by
  induction h generalizing i with
  | nil => cases helement
  | cons hfield hname _ ih =>
    cases i with
    | zero =>
      obtain rfl := Option.some.inj helement
      exact ⟨_, _, rfl, hfield, hname⟩
    | succ i => exact ih helement

end Keyed

/-- Two slots of one name are one slot. -/
theorem slot_unique (hnames : (fields.map Field.name).Nodup) {a b : Nat} {f g : Field}
    (ha : fields[a]? = some f) (hb : fields[b]? = some g) (h : f.name = g.name) : a = b := by
  have hlt : a < (fields.map Field.name).length := by
    rw [List.length_map]
    exact (List.getElem?_eq_some_iff.mp ha).1
  refine (List.getElem?_inj hlt hnames).mp ?_
  rw [List.getElem?_map, List.getElem?_map, ha, hb, Option.map_some, Option.map_some, h]

/-- A field is found under the name that an element is keyed with. -/
theorem NamesField.exists_found (h : NamesField fields element field) :
    ∃ slot found, fields.findIdx? (·.name == element.keyName?.getD "") = some slot ∧
      fields.find? (·.name == element.keyName?.getD "") = some found := by
  have hsame : (field.name == element.keyName?.getD "") = true := by
    rw [h.name, Option.getD_some, beq_self_eq_true]
  obtain ⟨found, hfound⟩ := Option.isSome_iff_exists.mp
    (List.find?_isSome (p := (·.name == element.keyName?.getD "")) |>.mpr ⟨field, h.mem, hsame⟩)
  have hslot := hfound
  rw [List.find?_eq_bind_findIdx?_getElem?] at hslot
  obtain ⟨slot, hslot, -⟩ := Option.bind_eq_some_iff.mp hslot
  exact ⟨slot, found, hslot, hfound⟩

section

variable (hnamed : "" ∉ fields.map Field.name)
include hnamed

/-- No field is found under the name of an element that is keyed with none. -/
theorem keyName?_of_mem (hmem : field ∈ fields) (h : field.name = element.keyName?.getD "") :
    element.keyName? = some field.name := by
  rcases hname : element.keyName? with _ | name
  · rw [hname, Option.getD_none] at h
    exact absurd (List.mem_map.mpr ⟨field, hmem, h⟩) hnamed
  · rw [hname, Option.getD_some] at h
    rw [h]

/-- A keyed literal that is lowered names a field with each of its elements. -/
theorem keyedSlots_ok
    (h : (keyedSlots type fields elements).runIn env s = (.ok values, s')) :
    ∃ named, Keyed fields elements named values := by
  -- By induction on the elements; the last case is that of an element whose field is not found.
  induction elements generalizing values with
  | nil =>
    obtain ⟨rfl, -⟩ := LowerM.runIn_pure_eq_ok h
    exact ⟨[], .nil⟩
  | cons element elements ih =>
    unfold keyedSlots at h
    dsimp only at h
    split at h
    · next slot field hslot hfound =>
      obtain ⟨rest, hrest, rfl⟩ := LowerM.runIn_map_eq_ok h
      obtain ⟨named, hkeyed⟩ := ih hrest
      have hsame : (field.name == element.keyName?.getD "") = true :=
        List.find?_some (p := fun f : Field => f.name == element.keyName?.getD "") hfound
      have hname := keyName?_of_mem hnamed (List.mem_of_find?_eq_some hfound) (beq_iff_eq.mp hsame)
      rw [List.find?_eq_bind_findIdx?_getElem?, hslot, Option.bind_some] at hfound
      exact ⟨field :: named, .cons hfound hname hkeyed⟩
    · cases h

/-- The first element that is keyed with no field is reported. -/
theorem runIn_keyedSlots_error (env : Env) (s : FunctionState) (type : GoType)
    (h : ∃ element ∈ elements, ∀ field, ¬ NamesField fields element field) :
    ∃ before bad after, elements = before ++ bad :: after ∧
      (∀ element ∈ before, ∃ field, NamesField fields element field) ∧
      (∀ field, ¬ NamesField fields bad field) ∧
      (keyedSlots type fields elements).runIn env s =
        (.error (.gap (.unknownField type.text (bad.keyName?.getD "") bad.value.location)), s) := by
  induction elements with
  | nil =>
    obtain ⟨element, hmem, -⟩ := h
    cases hmem
  | cons element elements ih =>
    by_cases hfirst : ∃ field, NamesField fields element field
    · -- The first element has a field, so another one is reported.
      obtain ⟨field, hfield⟩ := hfirst
      obtain ⟨before, bad, after, rfl, hbefore, hbad, herr⟩ := ih (by
        obtain ⟨other, hmem, hother⟩ := h
        rcases List.mem_cons.mp hmem with rfl | hmem
        · exact absurd hfield (hother field)
        · exact ⟨other, hmem, hother⟩)
      refine ⟨element :: before, bad, after, rfl,
        List.forall_mem_cons.mpr ⟨⟨field, hfield⟩, hbefore⟩, hbad, ?_⟩
      obtain ⟨slot, found, hslot, hfound⟩ := hfield.exists_found
      unfold keyedSlots
      dsimp only
      split
      · exact LowerM.runIn_bind_error herr _
      · next hnone => exact (hnone slot found hslot hfound).elim
    · have hnone : fields.findIdx? (fun f => f.name == element.keyName?.getD "") = none := by
        refine List.findIdx?_eq_none_iff.mpr fun field hmem => beq_eq_false_iff_ne.mpr fun hname => ?_
        exact hfirst ⟨field, hmem, keyName?_of_mem hnamed hmem hname⟩
      refine ⟨[], element, elements, rfl, by simp, not_exists.mp hfirst, ?_⟩
      unfold keyedSlots
      dsimp only
      split
      · next slot found hslot _ =>
        cases hnone.symm.trans hslot
      · rfl

end

/-! ### What the fields hold -/

/-- **What the fields of an instance hold**, where `texts` are the texts of the elements: each field is
listed once, and holds the text of the last element that is keyed with its name, and else its zero
value. -/
structure FieldsHold (fields : List Field) (elements : List Element) (texts : List String)
    (entries : List (String × String)) : Prop where
  names : entries.map Prod.fst = fields.map Field.name
  last : ∀ (i k : Nat) (element : Element) (field : Field) (text : String),
    elements[i]? = some element → texts[i]? = some text → fields[k]? = some field →
    element.keyName? = some field.name →
    (∀ (j : Nat) (other : Element), i < j → elements[j]? = some other →
      other.keyName? ≠ some field.name) →
        entries[k]? = some (field.name, text)
  unnamed : ∀ (k : Nat) (field : Field), fields[k]? = some field →
    (∀ element ∈ elements, element.keyName? ≠ some field.name) →
      ∃ zero, field.type.zero = .ok zero ∧ entries[k]? = some (field.name, zero)

/-- Setting slots changes no length. -/
theorem length_foldl_set (filled : List (Nat × String)) (values : List String) :
    (filled.foldl (fun values t => values.set t.1 t.2) values).length = values.length := by
  induction filled generalizing values with
  | nil => rfl
  | cons first filled ih => rw [List.foldl_cons, ih, List.length_set]

/-- The last text that is put into a slot stays. -/
theorem getElem?_foldl_set_last {filled : List (Nat × String)} {values : List String}
    {i slot : Nat} {text : String} (hlt : slot < values.length)
    (hi : filled[i]? = some (slot, text))
    (hlast : ∀ (j : Nat) (other : Nat × String), i < j → filled[j]? = some other →
      other.1 ≠ slot) :
    (filled.foldl (fun values t => values.set t.1 t.2) values)[slot]? = some text := by
  -- By induction on the slots that are set: the one in question is the first, and stays, or a later
  -- one.
  induction filled generalizing i values with
  | nil => cases hi
  | cons first filled ih =>
    rw [List.foldl_cons]
    cases i with
    | zero =>
      obtain rfl : first = (slot, text) := Option.some.inj hi
      refine getElem?_foldl_of_ne keepsOthers_set (fun hmem => ?_) (List.getElem?_set_self hlt)
      obtain ⟨other, hother, hslot⟩ := List.mem_map.mp hmem
      obtain ⟨j, hj⟩ := List.mem_iff_getElem?.mp hother
      exact hlast (j + 1) other (Nat.succ_pos j) hj hslot
    | succ i =>
      refine ih (by rwa [List.length_set]) hi fun j other hij hj => ?_
      exact hlast (j + 1) other (Nat.succ_lt_succ hij) hj

/-- The values of the fields, where texts have been put over their zero values. -/
def filledFields (zeros : List String) (values : List Slotted) (texts : List String) : List String :=
  ((values.map Slotted.slot).zip texts).foldl (fun values t => values.set t.1 t.2) zeros

namespace Keyed

/-- The slot of a field belongs to an element that is keyed with its name. -/
theorem exists_element (h : Keyed fields elements named values) {j k : Nat} {v : Slotted}
    (hfield : fields[k]? = some field) (hv : values[j]? = some v) (hslot : v.slot = k) :
    ∃ element, elements[j]? = some element ∧ element.keyName? = some field.name := by
  have hlt : j < elements.length := h.length_eq ▸ (List.getElem?_eq_some_iff.mp hv).1
  have helement := List.getElem?_eq_getElem hlt
  obtain ⟨v', field', hv', hfield', hname⟩ := h.getElem? helement
  obtain rfl : v = v' := Option.some.inj (hv.symm.trans hv')
  rw [hslot, hfield] at hfield'
  obtain rfl := Option.some.inj hfield'
  exact ⟨_, helement, hname⟩

variable {zeros texts : List String}

/-- The last element with the name of a field fills it. -/
theorem filled_last (h : Keyed fields elements named values)
    (hnames : (fields.map Field.name).Nodup) (hzeros : zeros.length = fields.length) {i k : Nat}
    {text : String} (helement : elements[i]? = some element) (htext : texts[i]? = some text)
    (hfield : fields[k]? = some field) (hname : element.keyName? = some field.name)
    (hlast : ∀ (j : Nat) (other : Element), i < j → elements[j]? = some other →
      other.keyName? ≠ some field.name) :
    (filledFields zeros values texts)[k]? = some text := by
  obtain ⟨v, field', hv, hfield', hname'⟩ := h.getElem? helement
  have hslot : v.slot = k :=
    slot_unique hnames hfield' hfield (Option.some.inj (hname'.symm.trans hname))
  have hat : (values.map Slotted.slot)[i]? = some k := by
    rw [List.getElem?_map, hv, Option.map_some, hslot]
  have hlt : k < zeros.length := hzeros ▸ (List.getElem?_eq_some_iff.mp hfield).1
  refine getElem?_foldl_set_last hlt (List.getElem?_zip_eq_some.mpr ⟨hat, htext⟩) ?_
  -- What is put there later would be the text of a later element of the same name.
  intro j other hij hj hother
  have hj := (List.getElem?_zip_eq_some.mp hj).1
  rw [List.getElem?_map, Option.map_eq_some_iff] at hj
  obtain ⟨v', hv', hslot'⟩ := hj
  obtain ⟨later, hlater, hsame⟩ := h.exists_element hfield hv' (hslot'.trans hother)
  exact hlast j later hij hlater hsame

/-- A field that no element names keeps its zero value. -/
theorem filled_unnamed (h : Keyed fields elements named values) (htexts : texts.length = values.length)
    {k : Nat} {zero : String} (hfield : fields[k]? = some field) (hzero : zeros[k]? = some zero)
    (hnone : ∀ element ∈ elements, element.keyName? ≠ some field.name) :
    (filledFields zeros values texts)[k]? = some zero := by
  refine getElem?_foldl_of_ne keepsOthers_set ?_ hzero
  rw [map_fst_zip_slots htexts]
  intro hmem
  obtain ⟨v, hv, hslot⟩ := List.mem_map.mp hmem
  obtain ⟨j, hj⟩ := List.mem_iff_getElem?.mp hv
  obtain ⟨element, helement, hname⟩ := h.exists_element hfield hj hslot
  exact hnone element (List.mem_of_getElem? helement) hname

/-- **Texts over zero values.** -/
theorem fieldsHold (h : Keyed fields elements named values) (hnames : (fields.map Field.name).Nodup)
    (hzeros : fieldZeros fields = .ok zeros) (htexts : texts.length = elements.length) :
    FieldsHold fields elements texts
      ((fields.map Field.name).zip (filledFields zeros values texts)) := by
  -- The values start as the zeros of all fields, one for each; after that the elements are set one
  -- by one.
  have hall := forall₂_of_fieldZeros hzeros
  have hlength : zeros.length = fields.length := hall.length_eq.symm
  have hname {k : Nat} {field : Field} (hfield : fields[k]? = some field) :
      (fields.map Field.name)[k]? = some field.name := by
    rw [List.getElem?_map, hfield, Option.map_some]
  refine ⟨List.map_fst_zip (Nat.le_of_eq ?_), ?_, ?_⟩
  · rw [filledFields, length_foldl_set, hlength, List.length_map]
  · intro i k element field text helement htext hfield hkey hlast
    exact List.getElem?_zip_eq_some.mpr
      ⟨hname hfield, h.filled_last hnames hlength helement htext hfield hkey hlast⟩
  · intro k field hfield hnone
    obtain ⟨hlt, rfl⟩ := List.getElem?_eq_some_iff.mp hfield
    have hlt' : k < zeros.length := hlength ▸ hlt
    have hzero := (List.forall₂_iff_get.mp hall).2 k hlt hlt'
    have hfilled := h.filled_unnamed (htexts.trans h.length_eq.symm) hfield
      (List.getElem?_eq_getElem hlt') hnone
    exact ⟨zeros[k], hzero, List.getElem?_zip_eq_some.mpr ⟨hname hfield, hfilled⟩⟩

end Keyed

end

/-! ### Literals -/

/-- **How a literal with keys has been lowered.** From the state `s` on its elements have come to
`parts`, and the instance that is emitted lists `entries`. -/
structure KeyedLiteral (lowering : Lowering) (env : Env) (s : FunctionState) (fields : List Field)
    (elements : List Element) (s' : FunctionState) (parts : List PlacedPart)
    (entries : List (String × String)) : Prop where
  /-- Every element is lowered once, in source order, as what the field of its name holds. -/
  lowered : ∃ named last s₁, List.Forall₂ (NamesField fields) elements named ∧
    LoweredInTurn env "_k" {} s ((elements.zip named).map (fieldPart lowering))
      (parts.map PlacedPart.toPartRun) last s₁
  /-- A temporary in the place of a text has been assigned it. -/
  pending : s'.pending = s.pending ++ (movedOccurrences "_k" parts).map Prod.snd
  each : parts.length = elements.length
  holds : FieldsHold fields elements (parts.map (PlacedPart.written "_k")) entries

/-- **How a literal without keys has been lowered.** Its elements have been lowered in turn to `runs`, each
as what the field in its place holds, and the instance that is emitted lists `entries`. -/
structure PositionalLiteral (lowering : Lowering) (env : Env) (s : FunctionState)
    (fields : List Field) (elements : List Element) (s' : FunctionState) (runs : List PartRun)
    (entries : List (String × String)) : Prop where
  lowered : RunInTurn env s ((elements.zip fields).map (fieldPart lowering)) runs s'
  each : elements.length = fields.length
  names : entries.map Prod.fst = fields.map Field.name
  texts : entries.map Prod.snd = runs.map PartRun.text

/-- **How a struct literal fills its fields**, and when it is rejected. -/
structure FillsFields (lowering : Lowering) (env : Env) (s : FunctionState) (e : Expr)
    (type : GoType) (fields : List Field) (elements : List Element) : Prop where
  keyed : (elements = [] ∨ ∃ element ∈ elements, element.key ≠ none) →
    ∀ (f : Fragment) (s' : FunctionState),
      (composite lowering e elements).runIn env s = (.ok f, s') →
        ∃ parts entries, f = .atom (instanceText type entries) ∧
          KeyedLiteral lowering env s fields elements s' parts entries
  positional : elements ≠ [] → (∀ element ∈ elements, element.key = none) →
    ∀ (f : Fragment) (s' : FunctionState),
      (composite lowering e elements).runIn env s = (.ok f, s') →
        ∃ runs entries, f = .atom (instanceText type entries) ∧
          PositionalLiteral lowering env s fields elements s' runs entries
  /-- Where some elements have keys, one without the name of a field is found before anything is
  lowered, however that would be done; the first of them is reported. -/
  unknown_field : (∃ element ∈ elements, element.key ≠ none) →
    (∃ element ∈ elements, element.key = none ∨
      ∀ field ∈ fields, element.keyName? ≠ some field.name) →
    (∀ field ∈ fields, ∃ zero, field.type.zero = .ok zero) →
      ∃ before bad after, elements = before ++ bad :: after ∧
        (∀ element ∈ before, ∃ field, NamesField fields element field) ∧
        (∀ field, ¬ NamesField fields bad field) ∧
        ∀ self : Lowering, (composite self e elements).runIn env s =
          (.error (.gap (.unknownField type.text (bad.keyName?.getD "") bad.value.location)), s)
  /-- So is a literal without keys that has another number of elements than the type has fields. -/
  field_count : elements ≠ [] → (∀ element ∈ elements, element.key = none) →
    elements.length ≠ fields.length →
      ∀ self : Lowering, (composite self e elements).runIn env s =
        (.error (.gap (.fieldCount type.text fields.length elements.length e.location)), s)

section

variable {n : Nat} {env : Env} {s s' : FunctionState} {e : Expr} {type : GoType}
  {fields : List Field} {elements : List Element}

/-- A keyed literal that is lowered holds each field, with its element or its zero. -/
theorem keyedFields_keyedLiteral {written : List String}
    (hnames : (fields.map Field.name).Nodup) (hnamed : "" ∉ fields.map Field.name)
    (h : (keyedFields (within n) e type fields elements).runIn env s = (.ok written, s')) :
    ∃ parts, KeyedLiteral (within n) env s fields elements s' parts
      ((fields.map Field.name).zip written) := by
  obtain ⟨zeros, values, filled, hzeros, hvalues, hfilled, rfl⟩ := runIn_keyedFields_eq_ok h
  obtain ⟨named, hkeyed⟩ := keyedSlots_ok hnamed hvalues
  obtain ⟨parts, rfl, ⟨last, s₂, hturn⟩, hpending, -⟩ := slotTexts_parts hfilled
  have hlength : parts.length = elements.length :=
    (length_of_slotTexts hturn).trans hkeyed.length_eq
  rw [hkeyed.map_slotText] at hturn
  exact ⟨parts, ⟨named, last, s₂, hkeyed.namesField, hturn⟩, hpending, hlength,
    hkeyed.fieldsHold hnames hzeros (by rw [List.length_map, hlength])⟩

/-- A keyed literal with an element that names no field reports the first one. -/
theorem runIn_keyedFields_error (env : Env) (s : FunctionState) (type : GoType)
    (hnamed : "" ∉ fields.map Field.name)
    (hzeros : ∀ field ∈ fields, ∃ zero, field.type.zero = .ok zero)
    (h : ∃ element ∈ elements, ∀ field, ¬ NamesField fields element field) :
    ∃ before bad after, elements = before ++ bad :: after ∧
      (∀ element ∈ before, ∃ field, NamesField fields element field) ∧
      (∀ field, ¬ NamesField fields bad field) ∧
      ∀ self e, (keyedFields self e type fields elements).runIn env s =
        (.error (.gap (.unknownField type.text (bad.keyName?.getD "") bad.value.location)), s) := by
  obtain ⟨before, bad, after, heq, hbefore, hbad, herr⟩ :=
    runIn_keyedSlots_error hnamed env s type h
  obtain ⟨zeros, hfields⟩ := (exists_fieldZeros_iff fields).mpr fun field hmem =>
    (exists_zeroAs_iff field.type field.type).mp (hzeros field hmem)
  refine ⟨before, bad, after, heq, hbefore, hbad, fun self e => ?_⟩
  exact (LowerM.runIn_bind_ok (runIn_zerosFor_ok hfields e) _).trans
    (LowerM.runIn_bind_error herr _)

/-- **How a struct literal fills its fields.** Every field is listed once, in the order of the
declaration. With keys, or without elements, a field holds the text of the last element that is keyed
with its name, and else its zero value; without keys it holds that of the element in its place. A literal
that fits the fields in neither way is rejected, and leaves the state as it was. -/
theorem composite_fillsFields (htype : env.type? s e.id = some type)
    (hstruct : type.throughPointer.underlying = .struct fields)
    (hnames : (fields.map Field.name).Nodup) (hnamed : "" ∉ fields.map Field.name) :
    FillsFields (within n) env s e type.throughPointer fields elements where
  keyed hkeyed f s' h := by
    -- The four fields of the theorem: two ways to write a literal, and an error of each.
    rw [runIn_composite_keyedStruct htype hstruct (keyed_iff.mpr hkeyed)] at h
    obtain ⟨written, hwritten, rfl⟩ := LowerM.runIn_map_eq_ok h
    obtain ⟨parts, hliteral⟩ := keyedFields_keyedLiteral hnames hnamed hwritten
    exact ⟨parts, _, by rw [structText_eq_instanceText], hliteral⟩
  positional hsome hkeyless f s' h := by
    rw [runIn_composite_positionalStruct htype hstruct (keyless_iff.mpr ⟨hsome, hkeyless⟩)] at h
    obtain ⟨texts, htexts, rfl⟩ := LowerM.runIn_map_eq_ok h
    unfold positionalFields at htexts
    split at htexts
    · next hcount =>
      have hlength : texts.length = (fields.map Field.name).length := by
        rw [length_of_runIn_mapM htexts, List.length_zip, hcount, Nat.min_self, List.length_map]
      obtain ⟨runs, hturn, rfl⟩ :=
        runInTurn_of_mapM (f := fieldPart (within n)) (fun _ => grows_valueText n _ _) htexts
      rw [structText_eq_instanceText]
      exact ⟨runs, _, rfl, hturn, hcount, List.map_fst_zip (Nat.le_of_eq hlength.symm),
        List.map_snd_zip (Nat.le_of_eq hlength)⟩
    · cases htexts
  unknown_field hkeyed hbad hzeros := by
    obtain ⟨element, hmem, hnone⟩ := hbad
    obtain ⟨before, bad, after, heq, hbefore, hfirst, herr⟩ :=
      runIn_keyedFields_error env s type.throughPointer hnamed hzeros
        ⟨element, hmem, fun field hfield => by
          rcases hnone with hkey | hnone
          · have hname := hfield.name
            rw [Element.keyName?, hkey] at hname
            cases hname
          · exact hnone field hfield.mem hfield.name⟩
    refine ⟨before, bad, after, heq, hbefore, hfirst, fun self => ?_⟩
    rw [runIn_composite_keyedStruct htype hstruct (keyed_iff.mpr (.inr hkeyed))]
    exact LowerM.runIn_bind_error (herr self e) _
  field_count hsome hkeyless hcount self := by
    rw [runIn_composite_positionalStruct htype hstruct (keyless_iff.mpr ⟨hsome, hkeyless⟩)]
    refine LowerM.runIn_bind_error ?_ _
    rw [positionalFields, if_neg hcount]
    rfl

def trioFields : List Field :=
  [⟨"A", .basic .int, false, none⟩, ⟨"B", .basic .string, false, none⟩,
    ⟨"C", .basic .int, false, none⟩]

/-- `main.Trio{C: g(), A: h(), C: 7}`, where `h` may suspend. -/
def trioOfCalls : Build (Expr × List Element) := do
  let (first, second) ← twoCalls
  let elements : List Element := [⟨some (← Build.fieldKey "C"), first⟩,
    ⟨some (← Build.fieldKey "A"), second⟩, ⟨some (← Build.fieldKey "C"), ← Build.int 7 .int⟩]
  let n ← Build.node (.named "main.Trio" (.struct trioFields))
  return (.compositeLit n elements, elements)

/-- `g()` is called, although what `C` holds in the end is the `7`. -/
theorem composite_fillsFields_trioOfCalls :
    FillsFields (within 9) trioOfCalls.env {} (trioOfCalls.run {}).1.1
        (.named "main.Trio" (.struct trioFields)) trioFields (trioOfCalls.run {}).1.2 ∧
      ((composite (within 9) (trioOfCalls.run {}).1.1 (trioOfCalls.run {}).1.2).runIn
        trioOfCalls.env {}).1.toOption = some (.atom
          "__reg:NewInstance(\"main.Trio\", \x7b[\"A\"]=_r0, [\"B\"]=\"\", [\"C\"]=7\x7d)") ∧
      ((composite (within 9) (trioOfCalls.run {}).1.1 (trioOfCalls.run {}).1.2).runIn
        trioOfCalls.env {}).2.pending.map Statement.text =
          ["_k1 = g()", "_r0 = h() --[[resume:0]]"] := by
  have htype : trioOfCalls.env.type? {} (trioOfCalls.run {}).1.1.id =
      some (.named "main.Trio" (.struct trioFields)) := by decide +kernel
  exact ⟨composite_fillsFields htype rfl (by decide) (by decide), by decide +kernel,
    by decide +kernel⟩

end

end Lower

end GoLua
