import GoLua.Lower.Composite
import GoLua.Proofs.Written.Convert

/-!
# Composite literals keep to the vocabulary

The texts of a literal are those of its values and of zero values, whatever slots they fill and
whichever temporaries they were moved to.
-/

namespace GoLua

open Lua

section

variable {V : Vocabulary} {env : Env} {s s' : FunctionState} {self : Lowering} {e : Expr}

/-! ### Slots -/

/-- A value of a literal that may be lowered as what it is converted to. -/
structure Lower.Slotted.Fits (V : Vocabulary) (env : Env) (s : FunctionState) (v : Lower.Slotted) :
    Prop where
  value : v.value.Settles V env s
  type : v.type.Spelled V

/-- Elements whose keys and values are settled. -/
def AreKnown (V : Vocabulary) (env : Env) (s : FunctionState) (elements : List Element) : Prop :=
  ∀ c ∈ elements.flatMap Element.parts, c.Settles V env s

namespace AreKnown

variable {element : Element} {elements : List Element}

/-- Elements that are known stay so. -/
theorem mono (h : AreKnown V env s elements) (hgrows : Grows s s') : AreKnown V env s' elements :=
  fun c hc => (h c hc).mono hgrows

theorem value (h : AreKnown V env s elements) (helement : element ∈ elements) :
    element.value.Settles V env s :=
  h element.value (List.mem_flatMap.mpr ⟨element, helement, by simp [Element.parts]⟩)

theorem key (h : AreKnown V env s elements) (helement : element ∈ elements) {k : Expr}
    (hk : element.key = some k) : k.Settles V env s :=
  h k (List.mem_flatMap.mpr ⟨element, helement, by simp [Element.parts, hk]⟩)

theorem rest (h : AreKnown V env s (element :: elements)) : AreKnown V env s elements :=
  fun c hc => h c (by rw [List.flatMap_cons]; exact List.mem_append_right _ hc)

end AreKnown

/-- Slots that are opened hold the zero value. -/
theorem areTexts_fill {zero : String} (hzero : IsText V false s zero) {slots : List (Nat × String)}
    (hslots : ∀ slot ∈ slots, IsText V false s slot.2) {texts : List String}
    (htexts : AreTexts V s texts) : AreTexts V s (slots.foldl (Lower.fill zero) texts) := by
  induction slots generalizing texts with
  | nil => exact htexts
  | cons slot slots ih =>
    refine ih (fun t ht => hslots t (by simp [ht])) fun text htext => ?_
    rcases List.mem_or_eq_of_mem_set htext with hmem | rfl
    · rcases List.mem_append.mp hmem with hmem | hmem
      · exact htexts text hmem
      · exact List.eq_of_mem_replicate hmem ▸ hzero
    · exact hslots slot (by simp)

/-- Texts that are set into a list of texts are texts again. -/
theorem areTexts_set {slots : List (Nat × String)}
    (hslots : ∀ slot ∈ slots, IsText V false s slot.2) {texts : List String}
    (htexts : AreTexts V s texts) :
    AreTexts V s (slots.foldl (fun values t => values.set t.1 t.2) texts) := by
  induction slots generalizing texts with
  | nil => exact htexts
  | cons slot slots ih =>
    refine ih (fun t ht => hslots t (by simp [ht])) fun text htext => ?_
    rcases List.mem_or_eq_of_mem_set htext with hmem | rfl
    · exact htexts text hmem
    · exact hslots slot (by simp)

namespace Delivers

/-- The slot of an element depends on constants alone. -/
theorem elementSlot (position : Nat) (key : Option Expr) :
    Delivers V env s (Lower.elementSlot position key) fun _ _ => True := by
  cases key with
  | none => exact .pure trivial
  | some key =>
    unfold Lower.elementSlot
    refine look (a := (env.constant? s key.id).bind Constant.toInt?) rfl fun _ => ?_
    split
    · exact unsupported
    · exact ite (fun _ => .pure trivial) fun _ => unsupported

/-- The elements of an array fit the slots they are given. -/
theorem indexedSlots {elements : List Element} (h : AreKnown V env s elements) {elem : GoType}
    (helem : elem.Spelled V) (position : Nat) :
    Delivers V env s (Lower.indexedSlots elem position elements)
      fun s' slots => ∀ v ∈ slots, v.Fits V env s' := by
  induction elements generalizing s position with
  | nil => exact .pure fun _ h => absurd h List.not_mem_nil
  | cons element elements ih =>
    refine (elementSlot position element.key).bind fun s₁ slot hgrows₁ _ => ?_
    refine (ih (h.rest.mono hgrows₁) (slot + 1)).bind fun s₂ slots hgrows₂ hslots => .pure ?_
    have hvalue := (h.value (List.mem_cons_self ..)).mono (hgrows₁.trans hgrows₂)
    exact List.forall_mem_cons.mpr ⟨⟨hvalue, helem⟩, hslots⟩

/-- The elements with names fit their fields. -/
theorem keyedSlots {elements : List Element} (h : AreKnown V env s elements) {type : GoType}
    {fields : List Field} (hfields : ∀ f ∈ fields, f.type.Spelled V) :
    Delivers V env s (Lower.keyedSlots type fields elements)
      fun s' slots => ∀ v ∈ slots, v.Fits V env s' := by
  induction elements with
  | nil => exact .pure fun _ h => absurd h List.not_mem_nil
  | cons element elements ih =>
    unfold Lower.keyedSlots
    dsimp only
    split
    · next slot field _ hfind =>
      refine (ih h.rest).bind fun s' slots hgrows hslots => .pure ?_
      have hvalue := (h.value (List.mem_cons_self ..)).mono hgrows
      exact List.forall_mem_cons.mpr ⟨⟨hvalue, hfields field (List.mem_of_find?_eq_some hfind)⟩, hslots⟩
    · exact fail rfl

section

variable (hself : Lowers V self) (henv : env.Plain V)
include hself henv

/-- What the elements are lowered to are texts. -/
theorem slotTexts {values : List Lower.Slotted} (h : ∀ v ∈ values, v.Fits V env s) :
    Delivers V env s (Lower.slotTexts self values)
      fun s' slots => ∀ slot ∈ slots, IsText V false s' slot.2 := by
  have hparts : AreTexts V s ({} : Lower.Parts).texts := fun _ h => absurd h List.not_mem_nil
  have hzip {s : FunctionState} {parts : Lower.Parts} (hparts : AreTexts V s parts.texts) :
      ∀ slot ∈ (values.map Lower.Slotted.slot).zip parts.texts, IsText V false s slot.2 :=
    fun slot hslot => hparts slot.2 (List.of_mem_zip hslot).2
  refine Delivers.bind (inSequence (by decide) (fun v hv s' hgrows => ?_) hparts)
    fun s₁ parts _ hparts => ite (fun _ => .pure (hzip hparts)) fun _ => ?_
  · exact (implicitCopy hself henv ((h v hv).value.mono hgrows) (h v hv).type).map Fragment.text
      fun _ _ hf => hf.text
  · exact (move (by decide) hparts).bind fun s₂ parts _ hparts => .pure (hzip hparts)

/-- So is the list that the slots are set into. -/
theorem indexedElements {elements : List Element} (h : AreKnown V env s elements) {elem : GoType}
    (helem : elem.Spelled V) (len : Option Nat) :
    Delivers V env s (Lower.indexedElements self e elements elem len) (AreTexts V) := by
  refine zeroFor fun zero _ hzero => (indexedSlots h helem 0).bind fun s₁ slots hgrows₁ hslots => ?_
  refine (slotTexts hself henv hslots).bind fun s₂ texts hgrows₂ htexts => ?_
  have hzero := (hzero.mono (hgrows₁.trans hgrows₂)).loose
  have hvalues : AreTexts V s₂ (texts.foldl (Lower.fill zero) []) :=
    areTexts_fill hzero htexts fun _ h => absurd h List.not_mem_nil
  dsimp only
  split
  · exact .pure hvalues
  · refine ite (fun _ => unsupported) fun _ => .pure (areTexts_append hvalues fun text htext => ?_)
    exact List.eq_of_mem_replicate htext ▸ hzero

/-! ### Literals -/

/-- The entries of a map are texts of a key and a value. -/
theorem mapEntries {elements : List Element} (h : AreKnown V env s elements) {key elem : GoType}
    (helem : elem.Spelled V) :
    Delivers V env s (Lower.mapEntries self e key elem elements) (AreTexts V) := by
  -- By induction on the elements, since each entry starts where the one before it ended.
  induction elements generalizing s with
  | nil => exact .pure fun _ h => absurd h List.not_mem_nil
  | cons element elements ih =>
    unfold Lower.mapEntries
    split
    · exact unsupported
    next k hk =>
    have hkey := h.key (List.mem_cons_self ..) hk
    have hvalue := h.value (List.mem_cons_self ..)
    refine (mapKey hself henv hkey key).bind fun s₁ keyText hgrows₁ hkeyText => ?_
    refine (implicitCopy hself henv (hvalue.mono hgrows₁) helem).bind fun s₂ value hgrows₂ hvalue => ?_
    have hgrows := hgrows₁.trans hgrows₂
    refine (ih (h.rest.mono hgrows)).bind fun s₃ entries hgrows₃ hentries => .pure ?_
    have hentry : IsText V false s₃ ("[" ++ keyText.text ++ "]=" ++ value.text) :=
      emits_joined [.text "[", .put (hkeyText.mono (hgrows₂.trans hgrows₃)).text, .text "]=",
        .put (hvalue.mono hgrows₃).text] rfl rfl
    exact areTexts_cons hentry hentries

theorem keyedFields {elements : List Element} (h : AreKnown V env s elements) (type : GoType)
    {fields : List Field} (hfields : ∀ f ∈ fields, f.type.Spelled V) :
    Delivers V env s (Lower.keyedFields self e type fields elements) (AreTexts V) := by
  refine Delivers.bind (mapM_all (P := IsText V false) (fun hgrows h => h.mono hgrows)
    fun f _ s' _ => zeroOf.weaken fun _ _ _ h => h.loose) fun s₁ zeros hgrows₁ hzeros => ?_
  refine (keyedSlots (h.mono hgrows₁) hfields).bind fun s₂ slots hgrows₂ hslots => ?_
  refine (slotTexts hself henv hslots).bind fun s₃ texts hgrows₃ htexts => .pure ?_
  exact areTexts_set htexts (AreTexts.mono hzeros (hgrows₂.trans hgrows₃))

theorem positionalFields {elements : List Element} (h : AreKnown V env s elements) (type : GoType)
    {fields : List Field} (hfields : ∀ f ∈ fields, f.type.Spelled V) :
    Delivers V env s (Lower.positionalFields self e type fields elements) (AreTexts V) := by
  refine ite (fun _ => ?_) fun _ => fail rfl
  refine mapM_all (P := IsText V false) (fun hgrows h => h.mono hgrows) fun p hp s' hgrows => ?_
  obtain ⟨hleft, hright⟩ := List.of_mem_zip hp
  exact (implicitCopy hself henv ((h.value hleft).mono hgrows) (hfields p.2 hright)).map
    Fragment.text fun _ _ hf => hf.text

theorem composite {elements : List Element} (h : AreKnown V env s elements) :
    Delivers V env s (Lower.composite self e elements) (IsSound V) := by
  refine typeOf henv fun type htype => ?_
  have htype := htype.throughPointer
  dsimp only
  split
  · next elem len hunderlying =>
    have helem : elem.Spelled V := htype.part_of_underlying hunderlying (by simp [GoType.parts])
    exact (indexedElements hself henv h helem _).bind fun s' texts _ htexts =>
      .pure (.atom (emits_arrayText htexts _ _))
  · next elem hunderlying =>
    have helem : elem.Spelled V := htype.part_of_underlying hunderlying (by simp [GoType.parts])
    exact (indexedElements hself henv h helem _).bind fun s' texts _ htexts =>
      .pure (.atom (emits_sliceText htexts _))
  · next key elem hunderlying =>
    have helem : elem.Spelled V := htype.part_of_underlying hunderlying (by simp [GoType.parts])
    exact (mapEntries hself henv h helem).bind fun s' entries _ hentries =>
      .pure (.atom (emits_mapText hentries _ _))
  · next fields hunderlying =>
    have hfields : ∀ f ∈ fields, f.type.Spelled V := fun f hf =>
      htype.part_of_underlying hunderlying (List.mem_map_of_mem hf)
    have hlast {s : FunctionState} {values : List String} (hvalues : AreTexts V s values) :
        Delivers V env s (Pure.pure
          (.atom (structText type.throughPointer (fields.map Field.name) values))) (IsSound V) :=
      .pure (.atom (emits_structText hvalues _ _))
    refine ite (fun _ => ?_) fun _ => ?_
    · exact (keyedFields hself henv h _ hfields).bind fun s' values _ hvalues => hlast hvalues
    · exact (positionalFields hself henv h _ hfields).bind fun s' values _ hvalues => hlast hvalues
  · exact unsupported

end

end Delivers

end

end GoLua
