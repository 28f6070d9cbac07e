import GoLua.Lower.Composite
import GoLua.Proofs.Brackets.Convert

/-!
# Sequences and literals of twins

Parts that are lowered one after the other leave the same statements between them. So literals whose
elements are twins mirror each other, with one exception: the keys of a struct literal are the names of
its fields, and are read, not lowered. There the names have to be the same, and a name in brackets is none.
-/

namespace GoLua

open Lower

variable {scene : Scene} {k l : Nat} {c c' e e' : Expr}

/-! ### Sequences -/

/-- What is moved are texts, and those are equal. -/
theorem mirrors_moveToTemporaries (hint : String) (texts : List String) :
    Mirrors scene (moveToTemporaries hint texts) (moveToTemporaries hint texts) := by
  induction texts with
  | nil => exact mirrors_pure rfl
  | cons text texts ih =>
    refine mirrors_ite (fun _ => ih.bind fun _ => mirrors_pure rfl) fun _ => ?_
    exact (mirrors_keepInTemporary hint text).bind fun _ => ih.bind fun _ => mirrors_pure rfl

theorem mirrors_move (hint : String) (parts : Parts) :
    Mirrors scene (parts.move hint) (parts.move hint) :=
  (mirrors_moveToTemporaries hint parts.open).bind fun _ => mirrors_pure rfl

/-- Whether a part moves those before it depends on what it leaves. -/
theorem mirrors_add {m m' : LowerM String} (h : Mirrors scene m m') (hint : String) (parts : Parts) :
    Mirrors scene (parts.add hint m) (parts.add hint m') := by
  -- Whether parts are moved depends on how many statements there are, not on what they say.
  refine mirrors_pendingCount.bind fun mark => h.bind fun text => ?_
  refine mirrors_pendingCount.bind fun count => mirrors_ite (fun _ => mirrors_pure rfl) fun _ => ?_
  refine (mirrors_splitPending mark).bind fun later => (mirrors_move hint parts).bind fun moved => ?_
  exact (mirrors_putBack later).bind fun _ => mirrors_pure rfl

/-- By induction on the parts. -/
theorem mirrors_inSequence {ms ms' : List (LowerM String)} (h : List.Forall₂ (Mirrors scene) ms ms')
    (hint : String) (parts : Parts) :
    Mirrors scene (inSequence hint parts ms) (inSequence hint parts ms') := by
  induction h generalizing parts with
  | nil => exact mirrors_pure rfl
  | cons hm _ ih => exact (mirrors_add hm hint parts).bind ih

/-! ### Slots -/

/-- Elements of literals that stand for each other. -/
structure ElementTwin (scene : Scene) (k l : Nat) (x x' : Element) : Prop where
  key : Option.Rel (Twin scene k l) x.key x'.key
  value : Twin scene k l x.value x'.value

/-- Twins stay twins with more fuel. -/
theorem ElementTwin.mono {n m : Nat} {x x' : Element} (h : ElementTwin scene n m x x') (hn : n ≤ k)
    (hm : m ≤ l) : ElementTwin scene k l x x' where
  key := rel_imp h.key fun _ _ hkey => hkey.mono hn hm
  value := h.value.mono hn hm

/-- Values that fill the same slot. -/
structure SlottedTwin (scene : Scene) (k l : Nat) (v v' : Slotted) : Prop where
  slot : v'.slot = v.slot
  value : Twin scene k l v.value v'.value
  type : v'.type = v.type

/-- The name of a field that an element gives the value of. -/
def Element.fieldName? (x : Element) : Option String :=
  x.key.bind Expr.identName?

/-- The values of a literal are lowered in the order of the elements. -/
theorem mirrors_slotTexts {values values' : List Slotted}
    (h : List.Forall₂ (SlottedTwin scene k l) values values') :
    Mirrors scene (slotTexts (within k) values) (slotTexts (within l) values') := by
  have hslots : values'.map Slotted.slot = values.map Slotted.slot :=
    forall₂_map_eq h fun _ _ hv => hv.slot
  have htexts : List.Forall₂ (Mirrors scene)
      (values.map fun v => Fragment.text <$> implicitCopy (within k) v.value v.type)
      (values'.map fun v => Fragment.text <$> implicitCopy (within l) v.value v.type) := by
    rw [List.forall₂_map_left_iff, List.forall₂_map_right_iff]
    refine h.imp fun v v' hv => ?_
    rw [hv.type]
    exact (mirrors_implicitCopy hv.value v.type).map Fragment.text
  unfold slotTexts
  dsimp only
  rw [hslots]
  refine (mirrors_inSequence htexts "_k" {}).bind fun parts => ?_
  refine mirrors_ite (fun _ => mirrors_pure rfl) fun _ => ?_
  exact (mirrors_move "_k" parts).bind fun _ => mirrors_pure rfl

/-- A key is a known position on both sides or on neither. -/
theorem mirrors_elementSlot {key key' : Option Expr} (h : Option.Rel (Twin scene k l) key key')
    (position : Nat) : Mirrors scene (elementSlot position key) (elementSlot position key') := by
  cases h with
  | none => exact mirrors_pure rfl
  | some h =>
    refine (mirrors_intConstantOf h.alike).bind fun i => ?_
    cases i with
    | none => exact mirrors_unsupported _ _ _ _
    | some i => exact mirrors_ite (fun _ => mirrors_pure rfl) fun _ => mirrors_unsupported _ _ _ _

theorem mirrors_indexedSlots {elements elements' : List Element}
    (h : List.Forall₂ (ElementTwin scene k l) elements elements') (elem : GoType) (position : Nat) :
    MirrorsBy scene (List.Forall₂ (SlottedTwin scene k l)) (indexedSlots elem position elements)
      (indexedSlots elem position elements') := by
  induction h generalizing position with
  | nil => exact mirrors_pure .nil
  | cons hx _ ih =>
    refine (mirrors_elementSlot hx.key position).bind fun slot => ?_
    exact (ih (slot + 1)).bind fun _ _ hrest => mirrors_pure (.cons ⟨rfl, hx.value, rfl⟩ hrest)

/-- Fields are found by the names of their keys, so these have to be the same. -/
theorem mirrors_keyedSlots {elements elements' : List Element}
    (h : List.Forall₂ (ElementTwin scene k l) elements elements')
    (hnames : elements'.map Element.fieldName? = elements.map Element.fieldName?) (type : GoType)
    (fields : List Field) :
    MirrorsBy scene (List.Forall₂ (SlottedTwin scene k l)) (keyedSlots type fields elements)
      (keyedSlots type fields elements') := by
  induction h with
  | nil => exact mirrors_pure .nil
  | @cons x x' rest rest' hx _ ih =>
    obtain ⟨hname, hnames⟩ := List.cons.inj hnames
    have hname : x'.key.bind Expr.identName? = x.key.bind Expr.identName? := hname
    unfold keyedSlots
    dsimp only
    rw [hname]
    split
    · exact (ih hnames).bind fun _ _ hrest => mirrors_pure (.cons ⟨rfl, hx.value, rfl⟩ hrest)
    · exact mirrors_fail _ _

/-! ### Literals -/

/-- The slots are the same, and the texts in them. -/
theorem mirrors_indexedElements {elements elements' : List Element}
    (h : List.Forall₂ (ElementTwin scene k l) elements elements') (e e' : Expr) (elem : GoType)
    (len : Option Nat) :
    Mirrors scene (indexedElements (within k) e elements elem len)
      (indexedElements (within l) e' elements' elem len) := by
  refine (mirrors_zeroFor e e' elem).bind fun zero => ?_
  refine (mirrors_indexedSlots h elem 0).bind fun slots slots' hslots => ?_
  refine (mirrors_slotTexts hslots).bind fun texts => ?_
  cases len with
  | none => exact mirrors_pure rfl
  | some len => exact mirrors_ite (fun _ => mirrors_unsupported _ _ _ _) fun _ => mirrors_pure rfl

/-- The keys of a map are lowered with their values. -/
theorem mirrors_mapEntries {elements elements' : List Element}
    (h : List.Forall₂ (ElementTwin scene k l) elements elements') (e e' : Expr) (key elem : GoType) :
    Mirrors scene (mapEntries (within k) e key elem elements)
      (mapEntries (within l) e' key elem elements') := by
  induction h with
  | nil => exact mirrors_pure rfl
  | @cons x x' rest rest' hx _ ih =>
    obtain ⟨kx, vx⟩ := x
    obtain ⟨kx', vx'⟩ := x'
    obtain ⟨hkey, hvalue⟩ := hx
    cases hkey with
    | none => exact mirrors_unsupported _ _ _ _
    | some hkey =>
      refine (mirrors_mapKey hkey key).bind fun keyText => ?_
      refine (mirrors_implicitCopy hvalue elem).bind fun value => ?_
      exact ih.bind fun _ => mirrors_pure rfl

theorem mirrors_keyedFields {elements elements' : List Element}
    (h : List.Forall₂ (ElementTwin scene k l) elements elements')
    (hnames : elements'.map Element.fieldName? = elements.map Element.fieldName?) (e e' : Expr)
    (type : GoType) (fields : List Field) :
    Mirrors scene (keyedFields (within k) e type fields elements)
      (keyedFields (within l) e' type fields elements') := by
  refine (mirrors_mapM_same fun f : Field => mirrors_zeroFor e e' f.type).bind fun zeros => ?_
  refine (mirrors_keyedSlots h hnames type fields).bind fun slots slots' hslots => ?_
  exact (mirrors_slotTexts hslots).bind fun _ => mirrors_pure rfl

/-- Fields in order take as many values on both sides. -/
theorem mirrors_positionalFields {elements elements' : List Element}
    (h : List.Forall₂ (ElementTwin scene k l) elements elements') (e e' : Expr) (type : GoType)
    (fields : List Field) :
    Mirrors scene (positionalFields (within k) e type fields elements)
      (positionalFields (within l) e' type fields elements') := by
  have hzip : List.Forall₂
      (fun p q => Twin scene k l p.1.value q.1.value ∧ q.2 = p.2)
      (elements.zip fields) (elements'.zip fields) := by
    induction h generalizing fields with
    | nil => exact .nil
    | cons hx _ ih =>
      cases fields with
      | nil => exact .nil
      | cons field fields => exact .cons ⟨hx.value, rfl⟩ (ih fields)
  unfold positionalFields
  rw [h.length_eq]
  refine mirrors_ite (fun _ => mirrors_mapM_eq hzip ?_) fun _ => mirrors_fail _ _
  rintro ⟨x, field⟩ ⟨x', field'⟩ ⟨hx, rfl⟩
  exact (mirrors_implicitCopy hx field'.type).map Fragment.text

/-- The type of a node, as it is known in some state. -/
theorem mirrors_typeOf_known (h : e'.id = e.id) :
    MirrorsBy scene (fun type type' => type' = type ∧
      ∃ s, Later scene.base s ∧ scene.env.type? s e.id = some type) (typeOf e) (typeOf e') := by
  refine mirrors_of_run fun inside s hs lowered reporter hreports => ?_
  have hread : (scene.reading inside).type? s e.id = scene.env.type? s e.id := rfl
  have hread' : (scene.reading inside).type? { s with lowered, reporter } e'.id =
      scene.env.type? s e.id := by rw [h]; rfl
  rw [runIn_typeOf, runIn_typeOf, hread, hread']
  cases hknown : scene.env.type? s e.id with
  | none => trivial
  | some type => exact ⟨⟨rfl, s, hs, hknown⟩, .refl s, lowered, reporter, rfl, hreports⟩

/-- **Literals.** The names of fields matter only in a literal of a struct. -/
theorem mirrors_composite {elements elements' : List Element}
    (h : List.Forall₂ (ElementTwin scene k l) elements elements') (hid : e'.id = e.id)
    (hnames : ∀ s type, Later scene.base s → scene.env.type? s e.id = some type →
      type.throughPointer.isStruct →
        elements'.map Element.fieldName? = elements.map Element.fieldName?) :
    Mirrors scene (composite (within k) e elements) (composite (within l) e' elements') := by
  refine (mirrors_typeOf_known hid).bind ?_
  rintro _ type ⟨rfl, s, hs, htype⟩
  dsimp only
  split
  · exact (mirrors_indexedElements h e e' _ _).bind fun _ => mirrors_pure rfl
  · exact (mirrors_indexedElements h e e' _ _).bind fun _ => mirrors_pure rfl
  · exact (mirrors_mapEntries h e e' _ _).bind fun _ => mirrors_pure rfl
  · next fields hunderlying =>
    have hstruct : type.throughPointer.isStruct := by
      unfold GoType.isStruct
      rw [hunderlying]
    -- Fields are given by name if some element has a key, in brackets or not.
    have hempty : elements'.isEmpty = elements.isEmpty := by cases h <;> rfl
    have hkeys : elements'.map (·.key.isSome) = elements.map (·.key.isSome) :=
      forall₂_map_eq h fun _ _ hx => isSome_eq_of_rel hx.key
    have hkeyed : elements'.any (·.key.isSome) = elements.any (·.key.isSome) := by
      simpa only [List.any_map, Function.id_comp] using congrArg (List.any · id) hkeys
    rw [hempty, hkeyed]
    refine mirrors_ite (fun _ => ?_) fun _ => ?_
    · have hfields := mirrors_keyedFields h (hnames s _ hs htype hstruct) e e' type.throughPointer fields
      exact hfields.bind fun _ => mirrors_pure rfl
    · exact (mirrors_positionalFields h e e' _ fields).bind fun _ => mirrors_pure rfl
  · exact mirrors_unsupported _ _ _ _

end GoLua
