import GoLua.Proofs.SourceOrder.Literal

/-!
# Where the elements of a literal stand

An element of an array or slice stands at the position of its key, or behind the element before it.
Keys may jump back and forth, and the list that is emitted grows while texts are put into it. This
module says what it holds in the end (`composite_places`).

* The positions follow from the elements alone (`Positions`), and they are found before anything is
  lowered: a key that is none leaves the state as it was.
* Each position holds the last text that was put there, and else the zero value (`SlotsHold`). Putting
  one more text keeps this (`SlotsHold.put`).
* A slice ends behind its largest position, and an array where its type says. An array with a
  position beyond that is rejected.
-/

namespace GoLua.Lower

open Lua

/-! ### Positions -/

/-- The position that a key stands for: an integer constant that is an index of 64 bits. -/
def keyPosition? (env : Env) (s : FunctionState) (key : Expr) : Option Nat :=
  ((env.constant? s key.id).bind Constant.toInt?).bind fun i =>
    if 0 ≤ i ∧ i < 0x10000000000000000 then some i.toNat else none

/-- **Positions.** An element with a key stands at the position of the key, and an element without one
behind the element before it; `start` is where the first element stands without a key. -/
structure Positions (position? : Expr → Option Nat) (start : Nat) (elements : List Element)
    (positions : List Nat) : Prop where
  length : positions.length = elements.length
  keyed : ∀ (i : Nat) (element : Element) (key : Expr), elements[i]? = some element →
    element.key = some key → ∃ p, position? key = some p ∧ positions[i]? = some p
  first : ∀ element : Element, elements[0]? = some element → element.key = none →
    positions[0]? = some start
  next : ∀ (i : Nat) (element : Element) (p : Nat), elements[i + 1]? = some element →
    element.key = none → positions[i]? = some p → positions[i + 1]? = some (p + 1)

namespace Positions

variable {position? : Expr → Option Nat} {start p : Nat} {element : Element}
  {elements : List Element} {positions positions' : List Nat}

theorem nil : Positions position? start [] [] :=
  ⟨rfl, by simp, by simp, by simp⟩

/-- One more element in front, from which the other ones go on. -/
theorem cons (hkeyed : ∀ key, element.key = some key → position? key = some p)
    (hkeyless : element.key = none → p = start)
    (h : Positions position? (p + 1) elements positions) :
    Positions position? start (element :: elements) (p :: positions) where
  length := congrArg Nat.succ h.length
  -- An index into the longer list is the first one, or an index into the rest.
  keyed i other key hother hkey := by
    cases i with
    | zero =>
      cases hother
      exact ⟨p, hkeyed key hkey, rfl⟩
    | succ i => exact h.keyed i other key hother hkey
  first other hother hnone := by
    cases hother
    exact congrArg some (hkeyless hnone)
  next i other q hother hnone hq := by
    cases i with
    | zero =>
      cases hq
      exact h.first other hother hnone
    | succ i => exact h.next i other q hother hnone hq

/-- The elements determine their positions. -/
theorem unique (h : Positions position? start elements positions)
    (h' : Positions position? start elements positions') : positions = positions' := by
  -- By induction on the index: a key gives the position, and without a key it is that of the
  -- element before.
  refine List.ext_getElem? fun i => ?_
  rcases hi : elements[i]? with _ | element
  · have hle := List.getElem?_eq_none_iff.mp hi
    rw [List.getElem?_eq_none (h.length ▸ hle), List.getElem?_eq_none (h'.length ▸ hle)]
  induction i generalizing element with
  | zero =>
    rcases hkey : element.key with _ | key
    · rw [h.first element hi hkey, h'.first element hi hkey]
    · obtain ⟨p, hp, hat⟩ := h.keyed 0 element key hi hkey
      obtain ⟨p', hp', hat'⟩ := h'.keyed 0 element key hi hkey
      rw [hat, hat', ← hp, hp']
  | succ i ih =>
    rcases hkey : element.key with _ | key
    · -- The position is the one behind that of the element before.
      have hlt : i < elements.length := Nat.lt_of_succ_lt (List.getElem?_eq_some_iff.mp hi).1
      have hbefore := ih elements[i] (List.getElem?_eq_getElem hlt)
      obtain ⟨p, hat⟩ : ∃ p, positions[i]? = some p :=
        ⟨_, List.getElem?_eq_getElem (h.length ▸ hlt)⟩
      rw [h.next i element _ hi hkey hat, h'.next i element _ hi hkey (hbefore ▸ hat)]
    · obtain ⟨p, hp, hat⟩ := h.keyed (i + 1) element key hi hkey
      obtain ⟨p', hp', hat'⟩ := h'.keyed (i + 1) element key hi hkey
      rw [hat, hat', ← hp, hp']

end Positions

section

variable {env : Env} {s s' : FunctionState} {elem : GoType} {position p : Nat} {key : Expr}
  {elements : List Element} {values : List Slotted}

/-- A constant key is the position, wherever the element stands. -/
theorem runIn_elementSlot_key (h : keyPosition? env s key = some p) (position : Nat) :
    (elementSlot position (some key)).runIn env s = (.ok p, s) := by
  obtain ⟨i, hi, hp⟩ := Option.bind_eq_some_iff.mp h
  have hconstant : (intConstantOf key).runIn env s = (.ok (some i), s) := by
    rw [← hi]
    rfl
  change (intConstantOf key >>= _).runIn env s = _
  rw [LowerM.runIn_bind_ok hconstant]
  dsimp only
  split at hp
  · next hrange =>
    rw [if_pos hrange, Option.some.inj hp]
    rfl
  · cases hp

/-- Any other key is an error. -/
theorem runIn_elementSlot_error (h : keyPosition? env s key = none) (position : Nat) :
    ∃ err, (elementSlot position (some key)).runIn env s = (.error err, s) := by
  have hconstant : (intConstantOf key).runIn env s =
      (.ok ((env.constant? s key.id).bind Constant.toInt?), s) := rfl
  change ∃ err, (intConstantOf key >>= _).runIn env s = _
  rw [LowerM.runIn_bind_ok hconstant]
  unfold keyPosition? at h
  rcases hi : (env.constant? s key.id).bind Constant.toInt? with _ | i
  · exact ⟨_, rfl⟩
  · rw [hi, Option.bind_some] at h
    dsimp only
    split at h
    · cases h
    · next hrange =>
      rw [if_neg hrange]
      exact ⟨_, rfl⟩

/-- The slots of the elements are their positions, and each holds its element. -/
theorem indexedSlots_ok
    (h : (indexedSlots elem position elements).runIn env s = (.ok values, s')) (self : Lowering) :
    Positions (keyPosition? env s) position elements (values.map Slotted.slot) ∧
      values.map (slotText self) = elements.map fun element => valueText self elem element.value := by
  -- By induction on the elements, with the position that the next one without a key takes.
  induction elements generalizing position values with
  | nil =>
    obtain ⟨rfl, -⟩ := LowerM.runIn_pure_eq_ok h
    exact ⟨.nil, rfl⟩
  | cons element elements ih =>
    obtain ⟨slot, s₁, hslot, hlater⟩ := LowerM.runIn_bind_eq_ok h
    obtain rfl := (still_elementSlot position element.key).runIn_eq_ok hslot
    obtain ⟨rest, hrest, rfl⟩ := LowerM.runIn_map_eq_ok hlater
    obtain ⟨hpositions, htexts⟩ := ih hrest
    refine ⟨.cons (fun key hkey => ?_) (fun hnone => ?_) hpositions, congrArg (_ :: ·) htexts⟩
    · rw [hkey] at hslot
      rcases hp : keyPosition? env s₁ key with _ | p
      · obtain ⟨err, herr⟩ := runIn_elementSlot_error hp position
        cases herr.symm.trans hslot
      · cases (runIn_elementSlot_key hp position).symm.trans hslot
        rfl
    · rw [hnone] at hslot
      exact (LowerM.runIn_pure_eq_ok hslot).1.symm

/-- A key that stands for no position is found before anything is lowered. -/
theorem runIn_indexedSlots_error (elem : GoType) (position : Nat)
    (h : ∃ element ∈ elements, ∃ key, element.key = some key ∧ keyPosition? env s key = none) :
    ∃ err, (indexedSlots elem position elements).runIn env s = (.error err, s) := by
  induction elements generalizing position with
  | nil =>
    obtain ⟨element, hmem, -⟩ := h
    cases hmem
  | cons element elements ih =>
    -- The key of the first element is bad, or else one of those that follow.
    rcases hslot : (elementSlot position element.key).runIn env s with ⟨err | slot, s₁⟩
    · obtain rfl : s₁ = s := by rw [← still_elementSlot position element.key env s, hslot]
      exact ⟨err, LowerM.runIn_bind_error hslot _⟩
    obtain rfl := (still_elementSlot position element.key).runIn_eq_ok hslot
    obtain ⟨err, herr⟩ : ∃ err, (indexedSlots elem (slot + 1) elements).runIn env s₁ =
        (.error err, s₁) := by
      refine ih _ ?_
      obtain ⟨bad, hmem, key, hkey, hnone⟩ := h
      rcases List.mem_cons.mp hmem with rfl | hmem
      · obtain ⟨err, herr⟩ := runIn_elementSlot_error hnone position
        rw [hkey, herr] at hslot
        cases hslot
      · exact ⟨bad, hmem, key, hkey, hnone⟩
    exact ⟨err, (LowerM.runIn_bind_ok hslot _).trans (LowerM.runIn_bind_error herr _)⟩

end

/-! ### What a list holds -/

/-- **What a list holds** after texts have been put into it: in each position the last text that was put
there, and else the zero value. -/
structure SlotsHold (zero : String) (filled : List (Nat × String)) (written : List String) :
    Prop where
  last : ∀ (i p : Nat) (text : String), filled[i]? = some (p, text) →
    (∀ (j : Nat) (other : Nat × String), i < j → filled[j]? = some other → other.1 ≠ p) →
      written[p]? = some text
  gap : ∀ p < written.length, p ∉ filled.map Prod.fst → written[p]? = some zero

section

variable {zero : String} {p : Nat} {texts written : List String} {filled : List (Nat × String)}

/-- The slots that are opened before a new one hold the zero value. -/
theorem getElem?_fill_opened {put : Nat × String} (hge : texts.length ≤ p) (hlt : p < put.1) :
    (fill zero texts put)[p]? = some zero := by
  rw [fill, List.getElem?_set_ne (Nat.ne_of_gt hlt), List.getElem?_append_right hge,
    List.getElem?_replicate, if_pos (by omega)]

namespace SlotsHold

theorem empty (zero : String) : SlotsHold zero [] [] :=
  ⟨by simp, by simp⟩

/-- **Putting one more text.** -/
theorem put (h : SlotsHold zero filled written) (x : Nat × String) :
    SlotsHold zero (filled ++ [x]) (fill zero written x) where
  last i p text hi hlast := by
    -- A text put in last is the last one at its position; the texts at all others stay what they
    -- were.
    rcases Nat.lt_trichotomy i filled.length with hlt | rfl | hgt
    · -- What was put before and is still the last one there is not overwritten.
      rw [List.getElem?_append_left hlt] at hi
      have hne : x.1 ≠ p := hlast filled.length x hlt (by simp)
      refine keepsOthers_fill zero written x p text hne.symm (h.last i p text hi fun j other hj ho => ?_)
      have hjlt := (List.getElem?_eq_some_iff.mp ho).1
      exact hlast j other hj (by rwa [List.getElem?_append_left hjlt])
    · have hx : x = (p, text) := by simpa using hi
      subst hx
      exact getElem?_fill_self zero written (p, text)
    · rw [List.getElem?_eq_none (by rw [List.length_append, List.length_singleton]; exact hgt)] at hi
      cases hi
  gap p hp hnot := by
    rw [List.map_append, List.mem_append, not_or] at hnot
    have hne : p ≠ x.1 := fun heq => hnot.2 (List.mem_singleton.mpr heq)
    rw [length_fill] at hp
    by_cases hlt : p < written.length
    · exact keepsOthers_fill zero written x p zero hne (h.gap p hlt hnot.1)
    · exact getElem?_fill_opened (Nat.le_of_not_lt hlt) (by omega)

/-- Texts that are put in one after another hold their slots. -/
theorem foldl (h : SlotsHold zero filled written) (more : List (Nat × String)) :
    SlotsHold zero (filled ++ more) (more.foldl (fill zero) written) := by
  induction more generalizing filled written with
  | nil => rwa [List.append_nil]
  | cons x more ih =>
    have hnext := ih (h.put x)
    rwa [List.append_assoc] at hnext

/-- Zero values behind the last position. -/
theorem padded (h : SlotsHold zero filled written)
    (habove : ∀ p ∈ filled.map Prod.fst, p < written.length) (n : Nat) :
    SlotsHold zero filled (written ++ List.replicate n zero) where
  last i p text hi hlast := by
    have hp := habove p (List.mem_map_of_mem (List.mem_of_getElem? hi))
    rw [List.getElem?_append_left hp]
    exact h.last i p text hi hlast
  gap p hp hnot := by
    by_cases hlt : p < written.length
    · rw [List.getElem?_append_left hlt]
      exact h.gap p hlt hnot
    · rw [List.length_append, List.length_replicate] at hp
      rw [List.getElem?_append_right (Nat.le_of_not_lt hlt), List.getElem?_replicate,
        if_pos (by omega)]

end SlotsHold

/-! ### Where a list ends -/

/-- A list ends behind the largest of its positions. -/
structure EndsBehind (positions : List Nat) (length : Nat) : Prop where
  above : ∀ p ∈ positions, p < length
  tight : length = 0 ∨ ∃ p ∈ positions, length = p + 1

namespace EndsBehind

variable {positions : List Nat} {length : Nat}

theorem empty : EndsBehind [] 0 :=
  ⟨by simp, .inl rfl⟩

/-- A text that is put behind the end moves the end. -/
theorem put (h : EndsBehind positions length) (p : Nat) :
    EndsBehind (positions ++ [p]) (max length (p + 1)) where
  above q hq := by
    rcases List.mem_append.mp hq with hq | hq
    · exact Nat.lt_of_lt_of_le (h.above q hq) (Nat.le_max_left _ _)
    · obtain rfl := List.mem_singleton.mp hq
      exact Nat.le_max_right _ _
  tight := by
    rcases Nat.le_total length (p + 1) with hle | hle
    · exact .inr ⟨p, by simp, Nat.max_eq_right hle⟩
    · rw [Nat.max_eq_left hle]
      exact h.tight.imp_right fun ⟨q, hq, heq⟩ => ⟨q, List.mem_append_left _ hq, heq⟩

/-- The end is behind the largest position. -/
theorem eq_max (h : EndsBehind positions length) :
    length = (positions.max?.map (· + 1)).getD 0 := by
  rcases hmax : positions.max? with _ | top
  · obtain rfl := List.max?_eq_none_iff.mp hmax
    exact h.tight.resolve_right fun ⟨p, hp, _⟩ => absurd hp List.not_mem_nil
  · -- The list ends behind the largest position, and behind one that is not larger.
    obtain ⟨hmem, hle⟩ := List.max?_eq_some_iff.mp hmax
    have habove := h.above top hmem
    obtain ⟨p, hp, heq⟩ := h.tight.resolve_left (by omega)
    have hp := hle p hp
    change length = top + 1
    omega

end EndsBehind

/-- After all of the texts, it is behind the largest of theirs. -/
theorem EndsBehind.foldl (h : EndsBehind (filled.map Prod.fst) written.length) (zero : String)
    (more : List (Nat × String)) :
    EndsBehind ((filled ++ more).map Prod.fst) (more.foldl (fill zero) written).length := by
  induction more generalizing filled written with
  | nil => rwa [List.append_nil]
  | cons x more ih =>
    have hnext : EndsBehind ((filled ++ [x]).map Prod.fst) (fill zero written x).length := by
      rw [List.map_append, length_fill]
      exact h.put x.1
    have hrest := ih hnext
    rwa [List.append_assoc] at hrest

theorem slotsHold_foldl (zero : String) (filled : List (Nat × String)) :
    SlotsHold zero filled (filled.foldl (fill zero) []) :=
  (SlotsHold.empty zero).foldl filled

theorem endsBehind_foldl (zero : String) (filled : List (Nat × String)) :
    EndsBehind (filled.map Prod.fst) (filled.foldl (fill zero) []).length := by
  have hempty : EndsBehind (([] : List (Nat × String)).map Prod.fst) ([] : List String).length :=
    .empty
  exact hempty.foldl zero filled

end

/-! ### Literals -/

/-- The literals whose elements have positions: their length, if the type fixes one, and what is written
for their texts. -/
inductive IndexedLiteral : GoType → GoType → Option Nat → (List String → String) → Prop
  | array {type elem : GoType} {len : Nat} (h : type.underlying = .array elem len) :
      IndexedLiteral type elem (some len) fun texts => arrayText texts elem len
  | slice {type elem : GoType} (h : type.underlying = .slice elem) :
      IndexedLiteral type elem none fun texts => sliceText texts elem

/-- **How the elements of a literal have been placed.** From the state `s` on they have come to `parts`,
and the list that is emitted is `written`. -/
structure Placed (lowering : Lowering) (env : Env) (s : FunctionState) (elements : List Element)
    (elem : GoType) (len : Option Nat) (s' : FunctionState) (positions : List Nat)
    (parts : List PlacedPart) (written : List String) : Prop where
  placedAt : Positions (keyPosition? env s) 0 elements positions
  /-- Every element is lowered once, in source order. -/
  lowered : ∃ last s₁, LoweredInTurn env "_k" {} s
    (elements.map fun element => valueText lowering elem element.value)
    (parts.map PlacedPart.toPartRun) last s₁
  /-- A temporary in the place of a text has been assigned it. -/
  pending : s'.pending = s.pending ++ (movedOccurrences "_k" parts).map Prod.snd
  each : parts.length = elements.length
  holds : ∃ zero, elem.zero = .ok zero ∧
    SlotsHold zero (positions.zip (parts.map (PlacedPart.written "_k"))) written
  length : written.length = len.getD ((positions.max?.map (· + 1)).getD 0)
  within_length : ∀ p ∈ positions, p < written.length

/-- **How a literal places its elements**, and when it is rejected. -/
structure PlacesElements (lowering : Lowering) (env : Env) (s : FunctionState) (e : Expr)
    (elements : List Element) (elem : GoType) (len : Option Nat) (write : List String → String) :
    Prop where
  placed : ∀ (f : Fragment) (s' : FunctionState),
    (composite lowering e elements).runIn env s = (.ok f, s') →
      ∃ positions parts written, f = .atom (write written) ∧
        Placed lowering env s elements elem len s' positions parts written
  /-- A key that stands for no position is found before anything is lowered, however that would be
  done. -/
  bad_key : (∃ element ∈ elements, ∃ key, element.key = some key ∧ keyPosition? env s key = none) →
    ∃ err, ∀ self : Lowering, (composite self e elements).runIn env s = (.error err, s)
  /-- An array has no positions beyond its length. -/
  too_long : ∀ (length : Nat) (positions : List Nat), len = some length →
    Positions (keyPosition? env s) 0 elements positions → (∃ p ∈ positions, length ≤ p) →
      ∃ err s', (composite lowering e elements).runIn env s = (.error err, s')

section

variable {self : Lowering} {n : Nat} {env : Env} {s s' : FunctionState} {e : Expr}
  {type elem : GoType} {elements : List Element} {len : Option Nat} {write : List String → String}
  {written : List String}

/-- An indexed literal is its elements, written as its type asks for. -/
theorem runIn_composite_indexed (self : Lowering) (htype : env.type? s e.id = some type)
    (hliteral : IndexedLiteral type.throughPointer elem len write) (elements : List Element) :
    (composite self e elements).runIn env s =
      (do return .atom (write (← indexedElements self e elements elem len)) :
        LowerM Fragment).runIn env s := by
  cases hliteral with
  | array hunderlying => exact runIn_composite_array htype hunderlying
  | slice hunderlying => exact runIn_composite_slice htype hunderlying

/-- A key that stands for no position is found before anything is lowered. -/
theorem runIn_indexedElements_error (e : Expr) (elem : GoType) (len : Option Nat)
    (h : ∃ element ∈ elements, ∃ key, element.key = some key ∧ keyPosition? env s key = none) :
    ∃ err, ∀ self : Lowering,
      (indexedElements self e elements elem len).runIn env s = (.error err, s) := by
  rcases hzero : (zeroFor e elem).runIn env s with ⟨err | zero, s₁⟩
  · obtain rfl : s₁ = s := by rw [← still_zeroFor e elem env s, hzero]
    exact ⟨err, fun self => LowerM.runIn_bind_error hzero _⟩
  obtain rfl := (still_zeroFor e elem).runIn_eq_ok hzero
  obtain ⟨err, herr⟩ := runIn_indexedSlots_error elem 0 h
  exact ⟨err, fun self =>
    (LowerM.runIn_bind_ok hzero _).trans (LowerM.runIn_bind_error herr _)⟩

/-- What is lowered of the elements is placed at their positions. -/
theorem indexedElements_placed
    (h : (indexedElements (within n) e elements elem len).runIn env s = (.ok written, s')) :
    ∃ positions parts, Placed (within n) env s elements elem len s' positions parts written := by
  -- What each step of the lowering yields, in turn: the positions, the parts and the list they
  -- fill.
  obtain ⟨zero, values, filled, hzero, hvalues, hfilled, hfits, rfl⟩ := runIn_indexedElements_eq_ok h
  obtain ⟨parts, rfl, ⟨last, s₁, hturn⟩, hpending, -⟩ := slotTexts_parts hfilled
  obtain ⟨hpositions, htexts⟩ := indexedSlots_ok hvalues (within n)
  have hlength := length_of_slotTexts hturn
  have hcount : values.length = elements.length := by
    rw [← hpositions.length, List.length_map]
  have hslots : ((values.map Slotted.slot).zip (parts.map (PlacedPart.written "_k"))).map Prod.fst =
      values.map Slotted.slot := map_fst_zip_slots (by rw [List.length_map, hlength])
  have hholds := slotsHold_foldl zero
    ((values.map Slotted.slot).zip (parts.map (PlacedPart.written "_k")))
  have hends := endsBehind_foldl zero
    ((values.map Slotted.slot).zip (parts.map (PlacedPart.written "_k")))
  have hpadded := hholds.padded hends.above
  rw [hslots] at hends
  refine ⟨values.map Slotted.slot, parts, hpositions, ⟨last, s₁, htexts ▸ hturn⟩, hpending,
    hlength.trans hcount, ⟨zero, hzero, hpadded _⟩, ?_, fun p hp => ?_⟩
  · rw [List.length_append, List.length_replicate, ← hends.eq_max]
    cases len with
    | none => rw [Option.getD_none, Nat.sub_self, Nat.add_zero]
    | some length => exact Nat.add_sub_cancel' (hfits length rfl)
  · rw [List.length_append]
    exact Nat.lt_of_lt_of_le (hends.above p hp) (Nat.le_add_right _ _)

/-- **Where the elements stand.** A literal of an array or slice puts each element at its position: the
last one stays, and the positions of none hold the zero value. A key that stands for no position leaves
the state as it was, and an array with a position beyond its length is rejected. -/
theorem composite_places (htype : env.type? s e.id = some type)
    (hliteral : IndexedLiteral type.throughPointer elem len write) :
    PlacesElements (within n) env s e elements elem len write where
  placed f s' h := by
    -- The fields of the theorem follow from how a successful run places its elements; both failures
    -- are errors of the run itself.
    rw [runIn_composite_indexed _ htype hliteral] at h
    obtain ⟨written, hwritten, rfl⟩ := LowerM.runIn_map_eq_ok h
    obtain ⟨positions, parts, hplaced⟩ := indexedElements_placed hwritten
    exact ⟨positions, parts, written, rfl, hplaced⟩
  bad_key hbad := by
    obtain ⟨err, herr⟩ := runIn_indexedElements_error e elem len hbad
    refine ⟨err, fun self => ?_⟩
    rw [runIn_composite_indexed self htype hliteral]
    exact LowerM.runIn_bind_error (herr self) _
  too_long length positions hlen hpositions hbeyond := by
    rcases h : (composite (within n) e elements).runIn env s with ⟨err | f, s'⟩
    · exact ⟨err, s', rfl⟩
    rw [runIn_composite_indexed _ htype hliteral] at h
    obtain ⟨written, hwritten, rfl⟩ := LowerM.runIn_map_eq_ok h
    obtain ⟨positions', parts, hplaced⟩ := indexedElements_placed hwritten
    obtain rfl := hpositions.unique hplaced.placedAt
    obtain ⟨p, hp, hle⟩ := hbeyond
    have hlt := hplaced.within_length p hp
    rw [hplaced.length, hlen, Option.getD_some] at hlt
    exact absurd hlt (Nat.not_lt_of_le hle)

/-- `[5]int{2: g(), h(), 0: 7}`, where `h` may suspend. -/
def arrayWithGaps : Build (Expr × List Element) := do
  let (first, second) ← twoCalls
  let elements : List Element := [⟨some (← Build.int 2 .int), first⟩, ⟨none, second⟩,
    ⟨some (← Build.int 0 .int), ← Build.int 7 .int⟩]
  return (.compositeLit (← Build.node (.array (.basic .int) 5)) elements, elements)

/-- `h()` stands behind `g()`, and the positions 1 and 4 hold zeros. -/
theorem composite_places_arrayWithGaps :
    PlacesElements (within 9) arrayWithGaps.env {} (arrayWithGaps.run {}).1.1
        (arrayWithGaps.run {}).1.2 (.basic .int) (some 5) (arrayText · (.basic .int) 5) ∧
      ((composite (within 9) (arrayWithGaps.run {}).1.1 (arrayWithGaps.run {}).1.2).runIn
        arrayWithGaps.env {}).1.toOption =
          some (.atom "_gi_NewArray(\x7b[0]=7, 0, _k1, _r0, 0\x7d, \"Int\", 5)") := by
  have htype : arrayWithGaps.env.type? {} (arrayWithGaps.run {}).1.1.id =
      some (.array (.basic .int) 5) := by decide +kernel
  exact ⟨composite_places htype (.array rfl), by decide +kernel⟩

end

end GoLua.Lower
