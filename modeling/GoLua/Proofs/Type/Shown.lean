import GoLua.Proofs.Type.Identity

/-!
# What the text of a type leaves out

The text of a type leaves out two things that identity compares. A variadic signature is written as if its
last parameter were a slice, and an embedded field by its type alone, without the name that it has, which an
alias may have given it. `GoType.shown` drops both, and changes no text by that (`GoType.text_shown`).

A type whose text leaves nothing out, `GoType.isShown`, has no variadic signature, and its embedded fields
are named after their types. Of such types nothing that matters is dropped (`GoType.identical_of_shown`).
-/

namespace GoLua

/-! ### Types without what their texts leave out -/

mutual

/-- A type without what its text leaves out: the names of embedded fields, and whether signatures are
variadic. -/
def GoType.shown : GoType → GoType
  | .basic k => .basic k
  | .array elem len => .array elem.shown len
  | .slice elem => .slice elem.shown
  | .map key elem => .map key.shown elem.shown
  | .struct fields => .struct (shownFields fields)
  | .pointer elem => .pointer elem.shown
  | .interface methods => .interface methods
  | .func signature => .func signature.shown
  | .chan elem => .chan elem.shown
  | .named name definition => .named name definition
  | .tuple types => .tuple (shownTypes types)
termination_by structural t => t

/-- Several types without what their texts leave out. -/
def shownTypes : List GoType → List GoType
  | [] => []
  | t :: ts => t.shown :: shownTypes ts
termination_by structural ts => ts

/-- Several fields without what their texts leave out. -/
def shownFields : List Field → List Field
  | [] => []
  | f :: fs => f.shown :: shownFields fs
termination_by structural fs => fs

/-- A field without what its text leaves out. -/
def Field.shown : Field → Field
  | ⟨name, type, embedded, hostTag⟩ => ⟨if embedded then "" else name, type.shown, embedded, hostTag⟩
termination_by structural f => f

/-- A signature without what its text leaves out. -/
def Signature.shown : Signature → Signature
  | ⟨recv, params, results, _⟩ => ⟨recv, shownTypes params, shownTypes results, false⟩
termination_by structural s => s

end

mutual

/-- What is shown of a type has the same text as the type. -/
@[simp] theorem GoType.text_shown (t : GoType) : t.shown.text = t.text := by
  cases t with
  | basic => rfl
  | array elem => simp [GoType.shown, GoType.text, elem.text_shown]
  | slice elem => simp [GoType.shown, GoType.text, elem.text_shown]
  | map key elem => simp [GoType.shown, GoType.text, key.text_shown, elem.text_shown]
  | struct fields => simp [GoType.shown, GoType.text, fieldTexts_shownFields fields]
  | pointer elem => simp [GoType.shown, GoType.text, elem.text_shown]
  | interface => rfl
  | func signature => simp [GoType.shown, GoType.text, signature.text_shown]
  | chan elem => simp [GoType.shown, GoType.text, elem.text_shown]
  | named => rfl
  | tuple types => simp [GoType.shown, GoType.text, typeTexts_shownTypes types]
termination_by structural t

@[simp] theorem typeTexts_shownTypes (ts : List GoType) : typeTexts (shownTypes ts) = typeTexts ts := by
  cases ts with
  | nil => rfl
  | cons t ts => simp [shownTypes, typeTexts, t.text_shown, typeTexts_shownTypes ts]
termination_by structural ts

@[simp] theorem fieldTexts_shownFields (fs : List Field) : fieldTexts (shownFields fs) = fieldTexts fs := by
  cases fs with
  | nil => rfl
  | cons f fs => simp [shownFields, fieldTexts, f.text_shown, fieldTexts_shownFields fs]
termination_by structural fs

@[simp] theorem Field.text_shown (f : Field) : f.shown.text = f.text := by
  cases f with
  | mk _ type embedded => cases embedded <;> simp [Field.shown, Field.text, type.text_shown]
termination_by structural f

@[simp] theorem Signature.text_shown (s : Signature) : s.shown.text = s.text := by
  cases s with
  | mk _ params results =>
    simp [Signature.shown, Signature.text, typeTexts_shownTypes params, typeTexts_shownTypes results]
termination_by structural s

end

/-! ### Types whose texts leave nothing out -/

mutual

/-- Whether the text of a type leaves nothing out: no signature is variadic, and the name of an embedded
field is told by the text of its type, as `naming` tells it. -/
def GoType.isShown (naming : String → String) : GoType → Bool
  | .basic _ => true
  | .array elem _ => elem.isShown naming
  | .slice elem => elem.isShown naming
  | .map key elem => key.isShown naming && elem.isShown naming
  | .struct fields => areShownFields naming fields
  | .pointer elem => elem.isShown naming
  | .interface _ => true
  | .func signature => signature.isShown naming
  | .chan elem => elem.isShown naming
  | .named _ _ => true
  | .tuple types => areShownTypes naming types
termination_by structural t => t

/-- Whether the texts of several types leave nothing out. -/
def areShownTypes (naming : String → String) : List GoType → Bool
  | [] => true
  | t :: ts => t.isShown naming && areShownTypes naming ts
termination_by structural ts => ts

/-- Whether the texts of several fields leave nothing out. -/
def areShownFields (naming : String → String) : List Field → Bool
  | [] => true
  | f :: fs => f.isShown naming && areShownFields naming fs
termination_by structural fs => fs

/-- Whether the text of a field leaves nothing out. -/
def Field.isShown (naming : String → String) : Field → Bool
  | ⟨name, type, embedded, _⟩ => (!embedded || name == naming type.text) && type.isShown naming
termination_by structural f => f

/-- Whether the text of a signature leaves nothing out. -/
def Signature.isShown (naming : String → String) : Signature → Bool
  | ⟨_, params, results, variadic⟩ =>
    !variadic && areShownTypes naming params && areShownTypes naming results
termination_by structural s => s

end

mutual

/-- Where the texts leave nothing out, types that are identical up to what texts leave out are identical. -/
theorem GoType.identical_of_shown {naming : String → String} (s t : GoType) (hs : s.isShown naming)
    (ht : t.isShown naming) (h : s.shown.identical t.shown) : s.identical t := by
  -- Two types that are shown alike have one form, and their parts are shown alike.
  cases s with
  | basic => cases t <;> simp_all [GoType.shown, GoType.identical]
  | array s m => cases t with
    | array t n =>
      obtain ⟨hlen, h⟩ := Bool.and_eq_true_iff.mp h
      exact Bool.and_eq_true_iff.mpr ⟨hlen, s.identical_of_shown t hs ht h⟩
    | _ => cases h
  | slice s => cases t with
    | slice t => exact s.identical_of_shown t hs ht h
    | _ => cases h
  | map j s => cases t with
    | map k t =>
      obtain ⟨hkey, h⟩ := Bool.and_eq_true_iff.mp h
      obtain ⟨hj, hs⟩ := Bool.and_eq_true_iff.mp hs
      obtain ⟨hk, ht⟩ := Bool.and_eq_true_iff.mp ht
      exact Bool.and_eq_true_iff.mpr ⟨j.identical_of_shown k hj hk hkey, s.identical_of_shown t hs ht h⟩
    | _ => cases h
  | struct fs => cases t with
    | struct gs => exact identicalFields_of_shown fs gs hs ht h
    | _ => cases h
  | pointer s => cases t with
    | pointer t => exact s.identical_of_shown t hs ht h
    | _ => cases h
  | interface => cases t <;> simp_all [GoType.shown, GoType.identical]
  | func s => cases t with
    | func t => exact s.identical_of_shown t hs ht h
    | _ => cases h
  | chan s => cases t with
    | chan t => exact s.identical_of_shown t hs ht h
    | _ => cases h
  -- Named types are identical if their names are, whatever they are shown as.
  | named => cases t <;> simp_all [GoType.shown, GoType.identical]
  | tuple ss => cases t with
    | tuple ts => exact identicalTypes_of_shown ss ts hs ht h
    | _ => cases h
termination_by structural s

/-- Types one by one. -/
theorem identicalTypes_of_shown {naming : String → String} (ss ts : List GoType)
    (hs : areShownTypes naming ss) (ht : areShownTypes naming ts)
    (h : identicalTypes (shownTypes ss) (shownTypes ts)) : identicalTypes ss ts := by
  cases ss with
  | nil => cases ts with
    | nil => rfl
    | cons => cases h
  | cons s ss => cases ts with
    | nil => cases h
    | cons t ts =>
      obtain ⟨hs, hss⟩ := Bool.and_eq_true_iff.mp hs
      obtain ⟨ht, hts⟩ := Bool.and_eq_true_iff.mp ht
      obtain ⟨h, hrest⟩ := Bool.and_eq_true_iff.mp h
      exact Bool.and_eq_true_iff.mpr
        ⟨s.identical_of_shown t hs ht h, identicalTypes_of_shown ss ts hss hts hrest⟩
termination_by structural ss

/-- Fields one by one. -/
theorem identicalFields_of_shown {naming : String → String} (fs gs : List Field)
    (hf : areShownFields naming fs) (hg : areShownFields naming gs)
    (h : identicalFields (shownFields fs) (shownFields gs)) : identicalFields fs gs := by
  cases fs with
  | nil => cases gs with
    | nil => rfl
    | cons => cases h
  | cons f fs => cases gs with
    | nil => cases h
    | cons g gs =>
      obtain ⟨hf, hfs⟩ := Bool.and_eq_true_iff.mp hf
      obtain ⟨hg, hgs⟩ := Bool.and_eq_true_iff.mp hg
      obtain ⟨h, hrest⟩ := Bool.and_eq_true_iff.mp h
      exact Bool.and_eq_true_iff.mpr
        ⟨f.identical_of_shown g hf hg h, identicalFields_of_shown fs gs hfs hgs hrest⟩
termination_by structural fs

/-- The name of an embedded field is hidden, but it is the one that its type gives it. -/
theorem Field.identical_of_shown {naming : String → String} (f g : Field) (hf : f.isShown naming)
    (hg : g.isShown naming) (h : f.shown.identical g.shown) : f.identical g := by
  cases f with
  | mk m s d => cases g with
    | mk n t e =>
      obtain ⟨hf, hs⟩ := Bool.and_eq_true_iff.mp hf
      obtain ⟨hg, ht⟩ := Bool.and_eq_true_iff.mp hg
      obtain ⟨hnames, htypes⟩ := Bool.and_eq_true_iff.mp h
      have htext : s.text = t.text := by
        rw [← s.text_shown, GoType.text_eq_of_identical htypes, t.text_shown]
      have hsame := s.identical_of_shown t hs ht htypes
      -- The names of embedded fields are both the one that the text of the type tells.
      cases d <;> cases e <;> simp_all [Field.identical]
termination_by structural f

/-- Of a signature it is hidden whether it is variadic, which `isShown` pins down. -/
theorem Signature.identical_of_shown {naming : String → String} (s t : Signature)
    (hs : s.isShown naming) (ht : t.isShown naming) (h : s.shown.identical t.shown) : s.identical t := by
  cases s with
  | mk _ ps qs v => cases t with
    | mk _ rs ss w =>
      obtain ⟨hs, hqs⟩ := Bool.and_eq_true_iff.mp hs
      obtain ⟨hv, hps⟩ := Bool.and_eq_true_iff.mp hs
      obtain ⟨ht, hss⟩ := Bool.and_eq_true_iff.mp ht
      obtain ⟨hw, hrs⟩ := Bool.and_eq_true_iff.mp ht
      obtain ⟨h, hresults⟩ := Bool.and_eq_true_iff.mp h
      obtain ⟨-, hparams⟩ := Bool.and_eq_true_iff.mp h
      simp_all [Signature.identical, identicalTypes_of_shown ps rs hps hrs hparams,
        identicalTypes_of_shown qs ss hqs hss hresults]
termination_by structural s

end

end GoLua
