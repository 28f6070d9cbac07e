import GoLua.Lower.Composite
import GoLua.Proofs.Built.Convert

/-!
# Composite literals

How literals are put together. Whatever slots the values of a literal fill, each is lowered once, in
source order.
-/

namespace GoLua.Built

variable {S : Setting} {I : NodeId → Prop} {w : Nat} {e : Expr}

/-! ### Slots -/

/-- What the values of a literal cost. -/
def slotsPrice (S : Setting) (values : List Lower.Slotted) : Nat :=
  sumOf (fun v : Lower.Slotted => S.prices.price v.value) values

/-- The values of the slots are paid for once each. -/
theorem slotTexts {values : List Lower.Slotted} (h : ∀ v ∈ values, v.value.Fits S I) :
    Builds S I (slotsPrice S values) (Lower.slotTexts S.self values) := by
  refine (inSequence (fun v hv => ?_) "_k" (by decide) {}).seq (Nat.le_refl _) fun parts _ => ?_
  · exact (implicitCopy (h v hv) v.type).map Fragment.text fun _ _ => trivial
  refine ite (fun _ => .pure trivial) fun _ => ?_
  exact (move (by decide) parts).free fun parts _ => .pure trivial

/-- The elements of a literal, and what may be asked of them. -/
def Known (S : Setting) (I : NodeId → Prop) (elements : List Element) : Prop :=
  ∀ c ∈ elements.flatMap Element.parts, c.Fits S I

namespace Known

variable {element : Element} {elements : List Element}

theorem value (h : Known S I (element :: elements)) : element.value.Fits S I :=
  h element.value (by simp [Element.parts])

theorem key (h : Known S I (element :: elements)) {k : Expr} (hk : element.key = some k) :
    k.Fits S I :=
  h k (by simp [Element.parts, hk])

theorem rest (h : Known S I (element :: elements)) : Known S I elements :=
  fun c hc => h c (by rw [List.flatMap_cons]; exact List.mem_append_right _ hc)

/-- Slots that hold the values of the elements can be lowered. -/
theorem slots (h : Known S I elements) {slots : List Lower.Slotted}
    (hslots : slots.map Lower.Slotted.value = elements.map Element.value) :
    ∀ v ∈ slots, v.value.Fits S I := by
  intro v hv
  obtain ⟨element, helement, hvalue⟩ :=
    List.mem_map.mp (hslots ▸ List.mem_map_of_mem (f := Lower.Slotted.value) hv)
  refine h v.value (List.mem_flatMap.mpr ⟨element, helement, ?_⟩)
  simp [Element.parts, hvalue]

end Known

/-- What the elements of a literal cost, keys included. -/
def elementsPrice (S : Setting) (elements : List Element) : Nat :=
  sumOf S.prices.price (elements.flatMap Element.parts)

/-- The slots hold the values of the elements, and no other ones. -/
theorem slotsPrice_le {elements : List Element} {slots : List Lower.Slotted}
    (h : slots.map Lower.Slotted.value = elements.map Element.value) :
    slotsPrice S slots ≤ elementsPrice S elements := by
  have hslots : slotsPrice S slots = sumOf S.prices.price (slots.map Lower.Slotted.value) :=
    (sumOf_map _ _ _).symm
  rw [hslots, h, sumOf_map, elementsPrice, sumOf_flatMap]
  exact sumOf_le_sumOf fun element _ => le_sumOf_of_mem (by simp [Element.parts])

/-- A key has to be known, so it costs nothing. -/
theorem elementSlot (position : Nat) {key : Option Expr} (h : ∀ k ∈ key, k.Fits S I) :
    Builds S I 0 (Lower.elementSlot position key) := by
  cases key with
  | none => exact .pure trivial
  | some key =>
    refine (intConstantOf (h key rfl).id).free fun i _ => ?_
    split
    · exact unsupported
    · exact ite (fun _ => .pure trivial) fun _ => unsupported

/-- Each element gives one slot. -/
theorem indexedSlots {elements : List Element} (h : Known S I elements) (elem : GoType)
    (position : Nat) :
    Built S I 0 (Lower.indexedSlots elem position elements)
      fun slots => slots.map Lower.Slotted.value = elements.map Element.value := by
  induction elements generalizing position with
  | nil => exact .pure rfl
  | cons element elements ih =>
    refine (elementSlot position fun k hk => h.key hk).free fun slot _ => ?_
    exact (ih h.rest (slot + 1)).free fun slots hslots => .pure (by simp [hslots])

/-- An array costs its elements. -/
theorem indexedElements {elements : List Element} (h : Known S I elements) (elem : GoType)
    (len : Option Nat) :
    Builds S I (elementsPrice S elements) (Lower.indexedElements S.self e elements elem len) := by
  refine (zeroFor elem).free fun zero _ => (indexedSlots h elem 0).free fun slots hslots => ?_
  refine (slotTexts (h.slots hslots)).seq (slotsPrice_le hslots) fun texts _ => ?_
  split
  · exact .pure trivial
  · exact ite (fun _ => unsupported) fun _ => .pure trivial

/-! ### Literals -/

/-- A map costs its keys and its values. -/
theorem mapEntries {elements : List Element} (h : Known S I elements) (key elem : GoType) :
    Builds S I (elementsPrice S elements) (Lower.mapEntries S.self e key elem elements) := by
  induction elements with
  | nil => exact .pure trivial
  | cons element elements ih =>
    unfold Lower.mapEntries
    split
    · exact unsupported
    · next k hk =>
      -- The key is lowered before the value, and both before the elements that follow.
      have hcost : elementsPrice S (element :: elements)
          = S.prices.price k + (S.prices.price element.value + elementsPrice S elements) := by
        simp [elementsPrice, Element.parts, hk]
      rw [hcost]
      refine (mapKey (h.key hk) key).seq (by omega) fun keyText _ => ?_
      refine (implicitCopy h.value elem).seq (by omega) fun value _ => ?_
      exact (ih h.rest).seq (by omega) fun entries _ => .pure trivial

/-- The keys of a struct are names of fields, and cost nothing. -/
theorem keyedSlots {elements : List Element} (type : GoType) (fields : List Field) :
    Built S I 0 (Lower.keyedSlots type fields elements)
      fun slots => slots.map Lower.Slotted.value = elements.map Element.value := by
  induction elements with
  | nil => exact .pure rfl
  | cons element elements ih =>
    unfold Lower.keyedSlots
    dsimp only
    split
    · exact ih.free fun slots hslots => .pure (by simp [hslots])
    · exact .fail fun _ _ h => by cases h

/-- A struct with keys costs its values. -/
theorem keyedFields {elements : List Element} (h : Known S I elements) (type : GoType)
    (fields : List Field) :
    Builds S I (elementsPrice S elements)
      (Lower.keyedFields S.self e type fields elements) := by
  have hzero : ∀ f ∈ fields, Builds S I 0 (Lower.zeroFor e f.type) := fun f _ => zeroFor f.type
  have hzeros : Builds S I 0 (fields.mapM fun f => Lower.zeroFor e f.type) :=
    (mapM hzero).spending (Nat.le_of_eq (sumOf_eq_zero fun _ _ => rfl))
  refine hzeros.free fun zeros _ => (keyedSlots type fields).free fun slots hslots => ?_
  exact (slotTexts (h.slots hslots)).seq (slotsPrice_le hslots) fun texts _ => .pure trivial

/-- A struct without keys does too. -/
theorem positionalFields {elements : List Element} (h : Known S I elements) (type : GoType)
    (fields : List Field) :
    Builds S I (elementsPrice S elements)
      (Lower.positionalFields S.self e type fields elements) := by
  refine ite (fun hlength => ?_) fun _ => (Built.fail fun _ _ h => by cases h).spending (Nat.zero_le _)
  -- There are as many fields as elements, so the pairs hold each element once.
  have hfirst : (elements.zip fields).map Prod.fst = elements :=
    List.map_fst_zip (Nat.le_of_eq hlength)
  have hcost : sumOf (fun p : Element × Field => S.prices.price p.1.value) (elements.zip fields)
      ≤ elementsPrice S elements := by
    rw [← sumOf_map (fun element : Element => S.prices.price element.value) Prod.fst, hfirst,
      elementsPrice, sumOf_flatMap]
    exact sumOf_le_sumOf fun element _ => le_sumOf_of_mem (by simp [Element.parts])
  refine (mapM fun p hp => ?_).spending hcost
  have hmem : p.1 ∈ elements := hfirst ▸ List.mem_map_of_mem (f := Prod.fst) hp
  have hvalue : p.1.value.Fits S I :=
    h _ (List.mem_flatMap.mpr ⟨p.1, hmem, by simp [Element.parts]⟩)
  exact (implicitCopy hvalue p.2.type).map Fragment.text fun _ _ => trivial

/-- A literal costs at most its elements. -/
theorem composite {elements : List Element} (he : I e.id) (h : Known S I elements) :
    Builds S I (elementsPrice S elements) (Lower.composite S.self e elements) := by
  refine (typeOf he).free fun type _ => ?_
  dsimp only
  split
  · exact (indexedElements h _ _).seq (Nat.le_refl _) fun texts _ => .pure trivial
  · exact (indexedElements h _ _).seq (Nat.le_refl _) fun texts _ => .pure trivial
  · exact (mapEntries h _ _).seq (Nat.le_refl _) fun texts _ => .pure trivial
  · refine ite (fun _ => ?_) fun _ => ?_
    · exact (keyedFields h _ _).seq (Nat.le_refl _) fun values _ => .pure trivial
    · exact (positionalFields h _ _).seq (Nat.le_refl _) fun values _ => .pure trivial
  · exact unsupported

end GoLua.Built
