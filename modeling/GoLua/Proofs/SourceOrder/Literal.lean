import GoLua.Proofs.Run.Zero
import GoLua.Proofs.SourceOrder

/-!
# The values of a literal in source order

The values of an array, a slice or a struct with keys are the parts of a sequence, but each stands in
the slot that it fills, and slots may be filled in any order. Texts that stay inline are evaluated slot
by slot. So where the slots of those that are not simple do not ascend, what is still open is moved
too; afterwards nothing that stays inline is evaluated any more (`slotTexts_ordered`).

Where no slot is filled twice, every text is still written in its slot when the last one has been
filled (`getElem?_foldl_fill`, `getElem?_foldl_set`), and so the order of the sequence is that of the
literal (`composite_filled`).
-/

namespace GoLua.Lower

open Lua

/-! ### Slots -/

/-- Slots that are found to ascend one by one ascend pairwise. -/
theorem pairwise_of_ascending {slots : List Nat} (h : ascending slots) : slots.Pairwise (· < ·) := by
  induction slots with
  | nil => exact .nil
  | cons i slots ih =>
    cases slots with
    | nil => exact List.pairwise_singleton _ _
    | cons j slots =>
      simp only [ascending, Bool.and_eq_true, decide_eq_true_eq] at h
      have hrest := ih h.2
      refine List.pairwise_cons.mpr ⟨fun k hk => ?_, hrest⟩
      rcases List.mem_cons.mp hk with rfl | hk
      · exact h.1
      · exact Nat.lt_trans h.1 (List.rel_of_pairwise_cons hrest hk)

/-- A way of filling slots keeps what stands in the other ones. -/
def KeepsOthers (put : List String → Nat × String → List String) : Prop :=
  ∀ (values : List String) (filled : Nat × String) (slot : Nat) (text : String),
    slot ≠ filled.1 → values[slot]? = some text → (put values filled)[slot]? = some text

section Filling

variable {put : List String → Nat × String → List String} {filled : List (Nat × String)}
  {values : List String} {slot : Nat} {text : String}

/-- A slot that nothing else is put into keeps its text. -/
theorem getElem?_foldl_of_ne (hput : KeepsOthers put) (hslot : slot ∉ filled.map Prod.fst)
    (htext : values[slot]? = some text) : (filled.foldl put values)[slot]? = some text := by
  induction filled generalizing values with
  | nil => exact htext
  | cons first filled ih =>
    rw [List.map_cons, List.mem_cons, not_or] at hslot
    exact ih hslot.2 (hput values first slot text hslot.1 htext)

/-- Where slots are distinct, each holds its text in the end. -/
theorem getElem?_foldl (hput : KeepsOthers put) {P : List String → Prop}
    (hkeeps : ∀ values p, p ∈ filled → P values → P (put values p))
    (hfills : ∀ values p, p ∈ filled → P values → (put values p)[p.1]? = some p.2)
    (hdistinct : (filled.map Prod.fst).Nodup) (hvalues : P values) (hmem : (slot, text) ∈ filled) :
    (filled.foldl put values)[slot]? = some text := by
  induction filled generalizing values with
  | nil => cases hmem
  | cons first filled ih =>
    rw [List.map_cons, List.nodup_cons] at hdistinct
    obtain ⟨hother, hdistinct⟩ := hdistinct
    rw [List.foldl_cons]
    -- The text is put in now and kept later, or it is put in later.
    rcases List.mem_cons.mp hmem with rfl | hmem
    · exact getElem?_foldl_of_ne hput hother (hfills values _ List.mem_cons_self hvalues)
    · exact ih (fun values p hp => hkeeps values p (List.mem_cons_of_mem _ hp))
        (fun values p hp => hfills values p (List.mem_cons_of_mem _ hp)) hdistinct
        (hkeeps values first List.mem_cons_self hvalues) hmem

/-- Opening slots for one text leaves those before it alone. -/
theorem keepsOthers_fill (zero : String) : KeepsOthers (fill zero) := by
  intro values filled slot text hslot htext
  have hlt := (List.getElem?_eq_some_iff.mp htext).1
  rw [fill, List.getElem?_set_ne hslot.symm, List.getElem?_append_left hlt, htext]

theorem keepsOthers_set : KeepsOthers fun values filled => values.set filled.1 filled.2 := by
  intro values filled slot text hslot htext
  rw [List.getElem?_set_ne hslot.symm, htext]

/-- As many slots are opened as the last text needs. -/
theorem length_fill (zero : String) (texts : List String) (put : Nat × String) :
    (fill zero texts put).length = max texts.length (put.1 + 1) := by
  rw [fill, List.length_set, List.length_append, List.length_replicate]
  omega

/-- A text that is put into a slot is there. -/
theorem getElem?_fill_self (zero : String) (texts : List String) (put : Nat × String) :
    (fill zero texts put)[put.1]? = some put.2 := by
  rw [fill, List.getElem?_set_self]
  rw [List.length_append, List.length_replicate]
  omega

/-- Every text is in its slot at the end, when no two have the same slot. -/
theorem getElem?_foldl_fill (zero : String) (hdistinct : (filled.map Prod.fst).Nodup)
    (hmem : (slot, text) ∈ filled) : (filled.foldl (fill zero) [])[slot]? = some text :=
  getElem?_foldl (keepsOthers_fill zero) (P := fun _ => True) (fun _ _ _ _ => trivial)
    (fun values p _ _ => getElem?_fill_self zero values p) hdistinct trivial hmem

/-- The same for fields, where all slots are there from the start. -/
theorem getElem?_foldl_set (hdistinct : (filled.map Prod.fst).Nodup)
    (hlt : ∀ p ∈ filled, p.1 < values.length) (hmem : (slot, text) ∈ filled) :
    (filled.foldl (fun values t => values.set t.1 t.2) values)[slot]? = some text := by
  refine getElem?_foldl keepsOthers_set (P := fun l => l.length = values.length)
    (fun l p _ hl => ?_) (fun l p hp hl => ?_) hdistinct rfl hmem
  · rw [List.length_set, hl]
  · rw [List.getElem?_set_self (by rw [hl]; exact hlt p hp)]

end Filling

/-! ### Values -/

/-- The text of a value of a literal. -/
def slotText (self : Lowering) (v : Slotted) : LowerM String :=
  Fragment.text <$> implicitCopy self v.value v.type

theorem grows_slotText (n : Nat) (v : Slotted) : Grows (slotText (within n) v) :=
  grows_valueText n v.type v.value

/-- **How a literal has filled its slots.** From the state `s` on, its values have come to `parts`, and
its slots hold `written`. -/
structure Filled (self : Lowering) (env : Env) (values : List Slotted) (s s' : FunctionState)
    (parts : List PlacedPart) (written : List String) : Prop where
  lowered : ∃ last s₁, LoweredInTurn env "_k" {} s (values.map (slotText self))
    (parts.map PlacedPart.toPartRun) last s₁
  /-- The statements are those of the values. -/
  pending : s'.pending = s.pending ++ (movedOccurrences "_k" parts).map Prod.snd
  order : InSourceOrder "_k" s.nextName s'.nextName parts (values.map Slotted.slot) written

section

variable {n : Nat} {env : Env} {s s₁ s' : FunctionState} {e : Expr} {type : GoType}
  {elements : List Element} {values : List Slotted}

/-- The values of a literal are lowered in turn, and each text or the temporary for it goes with its
slot. They are in source order, if each of them is still in its slot when all slots have been filled. -/
theorem slotTexts_parts {filled : List (Nat × String)}
    (h : (slotTexts (within n) values).runIn env s = (.ok filled, s')) :
    ∃ parts, filled = (values.map Slotted.slot).zip (parts.map (PlacedPart.written "_k")) ∧
      (∃ last s₁, LoweredInTurn env "_k" {} s (values.map (slotText (within n)))
        (parts.map PlacedPart.toPartRun) last s₁) ∧
      s'.pending = s.pending ++ (movedOccurrences "_k" parts).map Prod.snd ∧
      ∀ written, InPlaces (values.map Slotted.slot) (parts.map (PlacedPart.written "_k")) written →
        InSourceOrder "_k" s.nextName s'.nextName parts (values.map Slotted.slot) written := by
  have hname : "_k".toList = '_' :: ['k'] := rfl
  have hhint := isSimple_fresh hname (by decide)
  obtain ⟨last, s₁, hrun, hfinal⟩ := LowerM.runIn_bind_eq_ok h
  have hgrows : ∀ m ∈ values.map (slotText (within n)), Grows m := by
    rw [List.forall_mem_map]
    exact fun v _ => grows_slotText n v
  obtain ⟨runs, settled, opened, hturn, hseq, hruns⟩ :=
    (sequenced_empty s).inSequence hgrows hrun
  rw [List.map_nil, List.nil_append, List.nil_append] at hruns
  subst hruns
  dsimp only at hfinal
  split at hfinal
  -- The slots ascend, so the texts may stay where they are.
  · next hascending =>
    obtain ⟨hfilled, rfl⟩ := LowerM.runIn_pure_eq_ok hfinal
    rw [hseq.texts_eq] at hfilled
    refine ⟨settled ++ opened.map PartRun.inline, hfilled.symm, ⟨last, s₁, ?_⟩, hseq.pending_eq,
      fun written hplaces => ?_⟩
    · rwa [map_toPartRun_parts]
    · rw [← hseq.texts_eq] at hplaces
      exact hseq.inSourceOrder hhint hplaces (pairwise_of_ascending hascending)
  -- They do not, and all open texts are moved.
  · obtain ⟨moved, hmove, hfilled⟩ := LowerM.runIn_map_eq_ok hfinal
    obtain ⟨new, hnew, -, -, hsettled⟩ := hseq.move hmove
    subst hnew
    have htexts : moved.texts = (settled ++ new).map (PlacedPart.written "_k") := by
      rw [hsettled.texts_eq, List.map_nil, List.append_nil]
    rw [htexts] at hfilled
    refine ⟨settled ++ new, hfilled.symm, ⟨last, s₁, ?_⟩, ?_, fun written hplaces => ?_⟩
    · rwa [List.map_append]
    · simpa using hsettled.pending_eq
    · -- Everything has been moved, so there is nothing left to ascend.
      have hnone : ((values.map Slotted.slot).zip moved.texts).filter (fun p => !isSimple p.2) = [] :=
        List.filter_eq_nil_iff.mpr fun p hp => by
          simp [hsettled.simple_of_settled hhint p.2 (List.of_mem_zip hp).2]
      rw [← htexts] at hplaces
      have horder := hsettled.inSourceOrder hhint hplaces (by rw [hnone]; exact .nil)
      rwa [List.map_nil, List.append_nil] at horder

/-- The parts of a literal are as many as its values. -/
theorem length_of_slotTexts {last : Parts} {parts : List PlacedPart}
    (h : LoweredInTurn env "_k" {} s (values.map (slotText (within n)))
      (parts.map PlacedPart.toPartRun) last s₁) : parts.length = values.length := by
  have hlength := h.length_eq
  rwa [List.length_map, List.length_map] at hlength

/-- The texts that fill the slots are in source order, if each of them is still in its slot when all
slots have been filled. -/
theorem slotTexts_ordered {filled : List (Nat × String)}
    (h : (slotTexts (within n) values).runIn env s = (.ok filled, s')) :
    ∃ parts texts, filled = (values.map Slotted.slot).zip texts ∧
      texts.length = values.length ∧ ∀ written,
        InPlaces (values.map Slotted.slot) texts written →
          Filled (within n) env values s s' parts written := by
  obtain ⟨parts, hfilled, ⟨last, s₁, hturn⟩, hpending, horder⟩ := slotTexts_parts h
  refine ⟨parts, _, hfilled, ?_, fun written hplaces =>
    ⟨⟨last, s₁, hturn⟩, hpending, horder written hplaces⟩⟩
  rw [List.length_map, length_of_slotTexts hturn]

/-! ### Literals -/

/-- The literals whose values are put into slots: how their slots are found, and what is written for
their values. -/
inductive SlottedLiteral (elements : List Element) :
    GoType → LowerM (List Slotted) → (List String → String) → Prop
  | array {type elem : GoType} {len : Nat} (h : type.underlying = .array elem len) :
      SlottedLiteral elements type (indexedSlots elem 0 elements) fun texts =>
        arrayText texts elem len
  | slice {type elem : GoType} (h : type.underlying = .slice elem) :
      SlottedLiteral elements type (indexedSlots elem 0 elements) fun texts => sliceText texts elem
  | keyedStruct {type : GoType} {fields : List Field} (h : type.underlying = .struct fields)
      (hkeyed : elements.isEmpty || elements.any (·.key.isSome)) :
      SlottedLiteral elements type (keyedSlots type fields elements) fun texts =>
        structText type (fields.map Field.name) texts

/-- The slot of an element is found by looking at its key. -/
theorem still_elementSlot (position : Nat) (key : Option Expr) : Still (elementSlot position key) := by
  unfold elementSlot
  split
  · exact .pure _
  · refine ((Still.view _).map _).bind fun i => ?_
    split
    · exact .fail _
    · split
      · exact .pure _
      · exact .fail _

theorem still_indexedSlots (elem : GoType) (position : Nat) (elements : List Element) :
    Still (indexedSlots elem position elements) := by
  induction elements generalizing position with
  | nil => exact .pure []
  | cons element elements ih =>
    exact (still_elementSlot position element.key).bind fun slot => (ih _).map _

theorem still_keyedSlots (type : GoType) (fields : List Field) (elements : List Element) :
    Still (keyedSlots type fields elements) := by
  induction elements with
  | nil => exact .pure []
  | cons element elements ih =>
    unfold keyedSlots
    dsimp only
    split
    · exact ih.map _
    · exact .fail _

/-- The slots of a struct are those of its fields. -/
theorem slot_lt_of_keyedSlots {fields : List Field}
    (h : (keyedSlots type fields elements).runIn env s = (.ok values, s')) :
    ∀ v ∈ values, v.slot < fields.length := by
  induction elements generalizing values with
  | nil =>
    obtain ⟨rfl, -⟩ := LowerM.runIn_pure_eq_ok h
    simp
  | cons element elements ih =>
    unfold keyedSlots at h
    dsimp only at h
    split at h
    -- The slot is that of a field with the name of the key.
    · next slot field hslot _ =>
      obtain ⟨rest, hrest, rfl⟩ := LowerM.runIn_map_eq_ok h
      exact List.forall_mem_cons.mpr ⟨(List.findIdx?_eq_some_iff_getElem.mp hslot).1, ih hrest⟩
    · cases h

/-- Each text is in its slot if it is there when the slots have been filled one by one. -/
theorem inPlaces_of_filled {texts written : List String} (hlength : texts.length = values.length)
    (hdistinct : (values.map Slotted.slot).Nodup)
    (hwritten : ∀ p ∈ (values.map Slotted.slot).zip texts, written[p.1]? = some p.2) :
    InPlaces (values.map Slotted.slot) texts written where
  length := by rw [List.length_map, hlength]
  nodup := hdistinct
  getElem? i text place htext hplace :=
    hwritten (place, text) (List.mem_of_getElem? (List.getElem?_zip_eq_some.mpr ⟨hplace, htext⟩))

/-- Pairing slots with texts forgets no slot. -/
theorem map_fst_zip_slots {texts : List String} (hlength : texts.length = values.length) :
    ((values.map Slotted.slot).zip texts).map Prod.fst = values.map Slotted.slot :=
  List.map_fst_zip (Nat.le_of_eq (by rw [List.length_map, hlength]))

/-- The texts of an array or slice fill its slots one by one, and then there are zero values up to the
length of the type. -/
theorem runIn_indexedElements_eq_ok {self : Lowering} {elem : GoType} {len : Option Nat}
    {written : List String}
    (h : (indexedElements self e elements elem len).runIn env s = (.ok written, s')) :
    ∃ zero values filled, elem.zero = .ok zero ∧
      (indexedSlots elem 0 elements).runIn env s = (.ok values, s) ∧
      (slotTexts self values).runIn env s = (.ok filled, s') ∧
      (∀ length, len = some length → (filled.foldl (fill zero) []).length ≤ length) ∧
      written = filled.foldl (fill zero) [] ++ List.replicate
        (len.getD (filled.foldl (fill zero) []).length - (filled.foldl (fill zero) []).length) zero := by
  obtain ⟨zero, s₁, hrun, hslots⟩ := LowerM.runIn_bind_eq_ok h
  obtain ⟨hzero, rfl⟩ := runIn_zeroFor_eq_ok hrun
  obtain ⟨values, s₂, hvalues, htexts⟩ := LowerM.runIn_bind_eq_ok hslots
  obtain rfl := (still_indexedSlots elem 0 elements).runIn_eq_ok hvalues
  obtain ⟨filled, s₃, hfilled, hwritten⟩ := LowerM.runIn_bind_eq_ok htexts
  dsimp only at hwritten
  split at hwritten
  -- A slice is as long as its last slot asks for.
  · obtain ⟨rfl, rfl⟩ := LowerM.runIn_pure_eq_ok hwritten
    refine ⟨zero, values, filled, hzero, hvalues, hfilled, fun _ hnone => (nomatch hnone), ?_⟩
    rw [Option.getD_none, Nat.sub_self, List.replicate_zero, List.append_nil]
  · next length =>
    -- An array has its length, and its other slots are zero.
    split at hwritten
    · cases hwritten
    · next hle =>
      obtain ⟨rfl, rfl⟩ := LowerM.runIn_pure_eq_ok hwritten
      refine ⟨zero, values, filled, hzero, hvalues, hfilled, fun _ hlength => ?_, rfl⟩
      obtain rfl := Option.some.inj hlength
      exact Nat.le_of_not_lt hle

/-- The elements of an array or a slice are lowered in source order, whatever slots they fill. -/
theorem indexedElements_filled {elem : GoType} {len : Option Nat} {written : List String}
    (hvalues : (indexedSlots elem 0 elements).runIn env s = (.ok values, s₁))
    (hdistinct : (values.map Slotted.slot).Nodup)
    (h : (indexedElements (within n) e elements elem len).runIn env s = (.ok written, s')) :
    ∃ parts, Filled (within n) env values s s' parts written := by
  obtain ⟨zero, values', filled, -, hvalues', hfilled, -, rfl⟩ := runIn_indexedElements_eq_ok h
  obtain rfl : values' = values := Except.ok.inj (congrArg Prod.fst (hvalues'.symm.trans hvalues))
  obtain ⟨parts, texts, rfl, hlength, horder⟩ := slotTexts_ordered hfilled
  refine ⟨parts, horder _ (inPlaces_of_filled hlength hdistinct fun p hp => ?_)⟩
  rw [← map_fst_zip_slots hlength] at hdistinct
  have hslot := getElem?_foldl_fill zero hdistinct hp
  rw [List.getElem?_append_left (List.getElem?_eq_some_iff.mp hslot).1, hslot]

/-- The texts of a struct literal with keys are put over the zero values of its fields. -/
theorem runIn_keyedFields_eq_ok {self : Lowering} {fields : List Field} {written : List String}
    (h : (keyedFields self e type fields elements).runIn env s = (.ok written, s')) :
    ∃ zeros values filled, fieldZeros fields = .ok zeros ∧
      (keyedSlots type fields elements).runIn env s = (.ok values, s) ∧
      (slotTexts self values).runIn env s = (.ok filled, s') ∧
      written = filled.foldl (fun values t => values.set t.1 t.2) zeros := by
  obtain ⟨zeros, s₁, hrun, hslots⟩ := LowerM.runIn_bind_eq_ok h
  obtain ⟨hzeros, rfl⟩ := runIn_zerosFor_eq_ok hrun
  obtain ⟨values, s₂, hvalues, htexts⟩ := LowerM.runIn_bind_eq_ok hslots
  obtain rfl := (still_keyedSlots type fields elements).runIn_eq_ok hvalues
  obtain ⟨filled, hfilled, rfl⟩ := LowerM.runIn_map_eq_ok htexts
  exact ⟨zeros, values, filled, hzeros, hvalues, hfilled, rfl⟩

/-- The fields of a struct with keys are lowered in source order, whatever their order in the type.
-/
theorem keyedFields_filled {fields : List Field} {written : List String}
    (hvalues : (keyedSlots type fields elements).runIn env s = (.ok values, s₁))
    (hdistinct : (values.map Slotted.slot).Nodup)
    (h : (keyedFields (within n) e type fields elements).runIn env s = (.ok written, s')) :
    ∃ parts, Filled (within n) env values s s' parts written := by
  obtain ⟨zeros, values', filled, hzeros, hvalues', hfilled, rfl⟩ := runIn_keyedFields_eq_ok h
  obtain rfl : values' = values := Except.ok.inj (congrArg Prod.fst (hvalues'.symm.trans hvalues))
  obtain ⟨parts, texts, rfl, hlength, horder⟩ := slotTexts_ordered hfilled
  refine ⟨parts, horder _ (inPlaces_of_filled hlength hdistinct fun p hp => ?_)⟩
  rw [← map_fst_zip_slots hlength] at hdistinct
  refine getElem?_foldl_set hdistinct (fun q hq => ?_) hp
  obtain ⟨v, hv, hslot⟩ := List.mem_map.mp (List.of_mem_zip hq).1
  rw [← (forall₂_of_fieldZeros hzeros).length_eq, ← hslot]
  exact slot_lt_of_keyedSlots hvalues v hv

/-! A literal has keys if one of its elements has, and also if there are no elements. -/

/-- A struct literal is positional if it has elements and none of them has a key. -/
theorem keyless_iff : (elements.isEmpty || elements.any (·.key.isSome)) = false ↔
    elements ≠ [] ∧ ∀ element ∈ elements, element.key = none := by
  rw [Bool.or_eq_false_iff, List.isEmpty_eq_false_iff, List.any_eq_false]
  simp

/-- Otherwise it has none at all, or some key. -/
theorem keyed_iff : (elements.isEmpty || elements.any (·.key.isSome)) = true ↔
    elements = [] ∨ ∃ element ∈ elements, element.key ≠ none := by
  rw [Bool.or_eq_true, List.isEmpty_iff, List.any_eq_true]
  simp [Option.isSome_iff_ne_none]

/-! What a literal comes to, by the form of its type. -/

section Forms

variable {self : Lowering} (htype : env.type? s e.id = some type)
include htype

theorem runIn_composite_array {elem : GoType} {len : Nat}
    (h : type.throughPointer.underlying = .array elem len) :
    (composite self e elements).runIn env s = (do
      return .atom (arrayText (← indexedElements self e elements elem (some len)) elem len) :
        LowerM Fragment).runIn env s := by
  rw [composite, LowerM.runIn_bind_ok (runIn_typeOf_of_type? htype)]
  dsimp only
  rw [h]

theorem runIn_composite_slice {elem : GoType} (h : type.throughPointer.underlying = .slice elem) :
    (composite self e elements).runIn env s = (do
      return .atom (sliceText (← indexedElements self e elements elem none) elem) :
        LowerM Fragment).runIn env s := by
  rw [composite, LowerM.runIn_bind_ok (runIn_typeOf_of_type? htype)]
  dsimp only
  rw [h]

theorem runIn_composite_map {key elem : GoType}
    (h : type.throughPointer.underlying = .map key elem) :
    (composite self e elements).runIn env s = (do
      return .atom (mapText (← mapEntries self e key elem elements) key elem) :
        LowerM Fragment).runIn env s := by
  rw [composite, LowerM.runIn_bind_ok (runIn_typeOf_of_type? htype)]
  dsimp only
  rw [h]

theorem runIn_composite_keyedStruct {fields : List Field}
    (h : type.throughPointer.underlying = .struct fields)
    (hkeyed : (elements.isEmpty || elements.any (·.key.isSome)) = true) :
    (composite self e elements).runIn env s = (do
      let values ← keyedFields self e type.throughPointer fields elements
      return .atom (structText type.throughPointer (fields.map Field.name) values) :
        LowerM Fragment).runIn env s := by
  rw [composite, LowerM.runIn_bind_ok (runIn_typeOf_of_type? htype)]
  dsimp only
  rw [h]
  dsimp only
  rw [if_pos hkeyed]

theorem runIn_composite_positionalStruct {fields : List Field}
    (h : type.throughPointer.underlying = .struct fields)
    (hkeyless : (elements.isEmpty || elements.any (·.key.isSome)) = false) :
    (composite self e elements).runIn env s = (do
      let values ← positionalFields self e type.throughPointer fields elements
      return .atom (structText type.throughPointer (fields.map Field.name) values) :
        LowerM Fragment).runIn env s := by
  rw [composite, LowerM.runIn_bind_ok (runIn_typeOf_of_type? htype)]
  dsimp only
  rw [h]
  dsimp only
  rw [if_neg (Bool.eq_false_iff.mp hkeyless)]

end Forms

/-- **The values of a literal are evaluated in source order.** Whatever slots they fill, as long as no
slot is filled twice, and whatever they leave: each text that is not simple is evaluated once, and
everything is evaluated in the order in which it was lowered. -/
theorem composite_filled {slots : LowerM (List Slotted)} {write : List String → String} {f : Fragment}
    (htype : env.type? s e.id = some type)
    (hliteral : SlottedLiteral elements type.throughPointer slots write)
    (hvalues : slots.runIn env s = (.ok values, s₁)) (hdistinct : (values.map Slotted.slot).Nodup)
    (h : (composite (within n) e elements).runIn env s = (.ok f, s')) :
    ∃ parts written, f = .atom (write written) ∧
      Filled (within n) env values s s' parts written := by
  -- Each kind of literal has its rule, and the rules of slots say what is lowered when.
  cases hliteral with
  | array hunderlying =>
    rw [runIn_composite_array htype hunderlying] at h
    obtain ⟨written, hwritten, rfl⟩ := LowerM.runIn_map_eq_ok h
    obtain ⟨parts, hfilled⟩ := indexedElements_filled hvalues hdistinct hwritten
    exact ⟨parts, written, rfl, hfilled⟩
  | slice hunderlying =>
    rw [runIn_composite_slice htype hunderlying] at h
    obtain ⟨written, hwritten, rfl⟩ := LowerM.runIn_map_eq_ok h
    obtain ⟨parts, hfilled⟩ := indexedElements_filled hvalues hdistinct hwritten
    exact ⟨parts, written, rfl, hfilled⟩
  | keyedStruct hunderlying hkeyed =>
    rw [runIn_composite_keyedStruct htype hunderlying hkeyed] at h
    obtain ⟨written, hwritten, rfl⟩ := LowerM.runIn_map_eq_ok h
    obtain ⟨parts, hfilled⟩ := keyedFields_filled hvalues hdistinct hwritten
    exact ⟨parts, written, rfl, hfilled⟩

/-- An element with a number for a key. -/
def keyedCall (slot : Int) (name : String) (suspends : Bool) : Build Element := do
  return ⟨some (← Build.int slot .int), ← Build.callNamed name (.basic .int) suspends⟩

/-- `[]int{2: g(), 0: h(), 3: k(), 1: l()}`, where `h` may suspend. -/
def outOfOrder : Build (Expr × List Element) := do
  let elements := [← keyedCall 2 "g" false, ← keyedCall 0 "h" true,
    ← keyedCall 3 "k" false, ← keyedCall 1 "l" false]
  return (.compositeLit (← Build.node (.slice (.basic .int))) elements, elements)

/-- `g()` moves in front of the call of `h`, and the values behind it are moved in the end. -/
theorem composite_filled_outOfOrder :
    ∃ f s' values parts written,
      (composite (within 9) (outOfOrder.run {}).1.1 (outOfOrder.run {}).1.2).runIn outOfOrder.env {} =
          (.ok f, s') ∧
        f = .atom (sliceText written (.basic .int)) ∧
        Filled (within 9) outOfOrder.env values {} s' parts written ∧
        s'.pending.map Statement.text =
          ["_k1 = g()", "_r0 = h() --[[resume:0]]", "_k2 = k()", "_k3 = l()"] := by
  have hok : ((composite (within 9) (outOfOrder.run {}).1.1 (outOfOrder.run {}).1.2).runIn
      outOfOrder.env {}).1.isOk := by decide +kernel
  have hslotsOk : ((indexedSlots (.basic .int) 0 (outOfOrder.run {}).1.2).runIn
      outOfOrder.env {}).1.isOk := by decide +kernel
  obtain ⟨f, s', hrun⟩ := LowerM.exists_runIn_eq_ok hok
  obtain ⟨values, s₁, hvalues⟩ := LowerM.exists_runIn_eq_ok hslotsOk
  have htype : outOfOrder.env.type? {} (outOfOrder.run {}).1.1.id = some (.slice (.basic .int)) := by
    decide +kernel
  have hslots : (((indexedSlots (.basic .int) 0 (outOfOrder.run {}).1.2).runIn
      outOfOrder.env {}).1.toOption.map (List.map Slotted.slot)) = some [2, 0, 3, 1] := by
    decide +kernel
  have hpending : ((composite (within 9) (outOfOrder.run {}).1.1 (outOfOrder.run {}).1.2).runIn
      outOfOrder.env {}).2.pending.map Statement.text =
        ["_k1 = g()", "_r0 = h() --[[resume:0]]", "_k2 = k()", "_k3 = l()"] := by decide +kernel
  rw [hvalues] at hslots
  rw [hrun] at hpending
  have hdistinct : (values.map Slotted.slot).Nodup := by
    rw [Option.some.inj hslots]
    decide
  have hliteral : SlottedLiteral (outOfOrder.run {}).1.2
      (GoType.slice (.basic .int)).throughPointer
      (indexedSlots (.basic .int) 0 (outOfOrder.run {}).1.2)
      fun texts => sliceText texts (.basic .int) := .slice rfl
  obtain ⟨parts, written, hf, hfilled⟩ := composite_filled htype hliteral hvalues hdistinct hrun
  exact ⟨f, s', values, parts, written, hrun, hf, hfilled, hpending⟩

end

end GoLua.Lower
