import GoLua.Go.Type.Json
import GoLua.Proofs.Json.Form

/-!
# Forms of types

What a type is written as is a form of it (`GoType.isForm_toJson`), if the lengths of its arrays fit
the word that they are read into.
-/

namespace GoLua

open Json

variable (stable : Double → Prop)

/-! ### What fits -/

mutual

/-- Whether the lengths in a type fit a word of 64 bits. -/
def GoType.fits : GoType → Bool
  | .basic _ | .interface _ => true
  | .array elem len => elem.fits && len < 0x10000000000000000
  | .slice elem | .pointer elem | .chan elem => elem.fits
  | .map key elem => key.fits && elem.fits
  | .struct fields => fieldsFit fields
  | .func signature => signature.fits
  | .named _ definition => definition.fits
  | .tuple types => typesFit types
termination_by structural t => t

/-- Whether the lengths in several types fit. -/
def typesFit : List GoType → Bool
  | [] => true
  | t :: ts => t.fits && typesFit ts
termination_by structural ts => ts

/-- Whether the lengths in a receiver fit. -/
def receiverFits : Option GoType → Bool
  | none => true
  | some t => t.fits
termination_by structural t => t

/-- Whether the lengths in several fields fit. -/
def fieldsFit : List Field → Bool
  | [] => true
  | f :: fs => f.fits && fieldsFit fs
termination_by structural fs => fs

/-- Whether the lengths in a field fit. -/
def Field.fits : Field → Bool
  | ⟨_, type, _, _⟩ => type.fits
termination_by structural f => f

/-- Whether the lengths in a signature fit. -/
def Signature.fits : Signature → Bool
  | ⟨recv, params, results, _⟩ => receiverFits recv && typesFit params && typesFit results
termination_by structural s => s

end

/-! ### Forms -/

/-- A kind is read back by its label. -/
theorem Kind.isForm_toJson (k : Kind) : IsForm stable Kind.ofJson? k.toJson k :=
  isForm_label stable (by cases k <;> decide)

/-- The form of a type is never `null`. -/
theorem GoType.toJson_ne_null (t : GoType) : t.toJson ≠ .null := by
  cases t <;> rintro ⟨⟩

mutual

/-- A type is read back from its form, along with the lists of types it holds. -/
theorem GoType.isForm_toJson (t : GoType) (h : t.fits) :
    IsForm stable GoType.ofJson? t.toJson t := by
  cases t with
  | basic k =>
    have hk := k.isForm_toJson stable
    refine isForm_variant (noDefault rfl) rfl hk.isWritten fun htag hbody => ?_
    rw [GoType.ofJson?, htag]
    simp [hk.decode_eq hbody]
  | array elem len =>
    rw [GoType.fits, Bool.and_eq_true, decide_eq_true_iff] at h
    have helem := elem.isForm_toJson h.1
    have hlen := isForm_word64 stable h.2
    refine isForm_variant (noDefault rfl) rfl
      (.member rfl helem.isWritten (.member rfl hlen.isWritten .noMembers)) fun htag hbody => ?_
    obtain ⟨_, _, hget, he⟩ := (hbody.holds "elem" _ rfl).part? (noDefault rfl) helem
    have hlen := (hbody.holds "len" _ rfl).required? (noDefault rfl) hlen
    rw [GoType.ofJson?, htag]
    simp [hget, he, hlen]
  | slice elem =>
    have helem := elem.isForm_toJson h
    refine isForm_variant (noDefault rfl) rfl (.member rfl helem.isWritten .noMembers)
      fun htag hbody => ?_
    obtain ⟨_, _, hget, he⟩ := (hbody.holds "elem" _ rfl).part? (noDefault rfl) helem
    rw [GoType.ofJson?, htag]
    simp [hget, he]
  | map key elem =>
    rw [GoType.fits, Bool.and_eq_true] at h
    have hkey := key.isForm_toJson h.1
    have helem := elem.isForm_toJson h.2
    refine isForm_variant (noDefault rfl) rfl
      (.member rfl hkey.isWritten (.member rfl helem.isWritten .noMembers)) fun htag hbody => ?_
    -- The key of an element may be missing; that of a map is a type, and is always there.
    obtain ⟨_, _, hgetKey, hk⟩ := (hbody.holds "key" _ rfl).part?
      (fun heq => key.toJson_ne_null (Option.some_inj.mp heq).symm) hkey
    obtain ⟨_, _, hgetElem, he⟩ := (hbody.holds "elem" _ rfl).part? (noDefault rfl) helem
    rw [GoType.ofJson?, htag]
    simp [hgetKey, hk, hgetElem, he]
  | struct fields =>
    have hfields := forall₂_fieldsToJson fields h
    have hwritten := isWritten_of_forall₂ hfields
    refine isForm_variant (noDefault rfl) rfl (.member rfl hwritten .noMembers) fun htag hbody => ?_
    obtain ⟨fs, _, hget, hfs⟩ := (hbody.holds "fields" _ rfl).get? (noDefault rfl)
    obtain ⟨parts, hparts, hread⟩ := hfs.items? hfields
    rw [GoType.ofJson?, htag]
    simp [hget, hparts, hread]
  | pointer elem =>
    have helem := elem.isForm_toJson h
    refine isForm_variant (noDefault rfl) rfl (.member rfl helem.isWritten .noMembers)
      fun htag hbody => ?_
    obtain ⟨_, _, hget, he⟩ := (hbody.holds "elem" _ rfl).part? (noDefault rfl) helem
    rw [GoType.ofJson?, htag]
    simp [hget, he]
  | interface methods =>
    have hmethods := isForm_listMap fun m (_ : m ∈ methods) => isForm_string stable m
    refine isForm_variant (noDefault rfl) rfl (.member rfl hmethods.isWritten .noMembers)
      fun htag hbody => ?_
    have hread := (hbody.holds "methods" _ rfl).required? (noDefault rfl) hmethods
    rw [GoType.ofJson?, htag]
    simp [hread]
  | func signature =>
    have hsignature := signature.isForm_toJson h
    refine isForm_variant (noDefault rfl) rfl hsignature.isWritten fun htag hbody => ?_
    rw [GoType.ofJson?, htag]
    simp [hsignature.decode_eq hbody]
  | chan elem =>
    have helem := elem.isForm_toJson h
    refine isForm_variant (noDefault rfl) rfl (.member rfl helem.isWritten .noMembers)
      fun htag hbody => ?_
    obtain ⟨_, _, hget, he⟩ := (hbody.holds "elem" _ rfl).part? (noDefault rfl) helem
    rw [GoType.ofJson?, htag]
    simp [hget, he]
  | named name definition =>
    have hdefinition := definition.isForm_toJson h
    refine isForm_variant (noDefault rfl) rfl
      (.member rfl (.string name) (.member rfl hdefinition.isWritten .noMembers))
      fun htag hbody => ?_
    have hname := (hbody.holds "name" _ rfl).required? (noDefault rfl) (isForm_string stable name)
    obtain ⟨_, _, hget, hd⟩ := (hbody.holds "underlying" _ rfl).part? (noDefault rfl) hdefinition
    rw [GoType.ofJson?, htag]
    simp [hname, hget, hd]
  | tuple types =>
    have htypes := forall₂_typesToJson types h
    refine isForm_variant (noDefault rfl) rfl (isWritten_of_forall₂ htypes) fun htag hbody => ?_
    obtain ⟨parts, hparts, hread⟩ := hbody.items? htypes
    rw [GoType.ofJson?, htag]
    simp [hparts, hread]
termination_by structural t

/-- So are the types of parameters, results and tuples. -/
theorem forall₂_typesToJson (ts : List GoType) (h : typesFit ts) :
    List.Forall₂ (IsForm stable GoType.ofJson?) (typesToJson ts) ts := by
  cases ts with
  | nil => exact .nil
  | cons t ts =>
    rw [typesFit, Bool.and_eq_true] at h
    exact .cons (t.isForm_toJson h.1) (forall₂_typesToJson ts h.2)
termination_by structural ts

/-- The receiver of a signature may be missing. -/
theorem isForm_receiverToJson (t : Option GoType) (h : receiverFits t) :
    ∀ s ∈ t, IsForm stable GoType.ofJson? s.toJson s := by
  cases t with
  | none => rintro _ ⟨⟩
  | some t =>
    rintro _ ⟨⟩
    exact t.isForm_toJson h
termination_by structural t

/-- The fields of a struct are read back in their order. -/
theorem forall₂_fieldsToJson (fs : List Field) (h : fieldsFit fs) :
    List.Forall₂ (IsForm stable Field.ofJson?) (fieldsToJson fs) fs := by
  cases fs with
  | nil => exact .nil
  | cons f fs =>
    rw [fieldsFit, Bool.and_eq_true] at h
    exact .cons (f.isForm_toJson h.1) (forall₂_fieldsToJson fs h.2)
termination_by structural fs

/-- A field is read back with its tag. -/
theorem Field.isForm_toJson (f : Field) (h : f.fits) : IsForm stable Field.ofJson? f.toJson f := by
  cases f with
  -- The tag may be missing and `embedded` has a default; the other two members are always there.
  | mk name type embedded hostTag =>
    have htype := type.isForm_toJson h
    have htag : ∀ t ∈ hostTag, IsForm stable string? (.string t) t :=
      fun t _ => isForm_string stable t
    have hne : ∀ t ∈ hostTag, Json.string t ≠ .null := by rintro _ _ ⟨⟩
    refine ⟨.member rfl (.string name) (.member rfl htype.isWritten (.member rfl (.bool embedded)
      (.member rfl (isForm_ofOption hne htag).isWritten .noMembers))), fun hj => ?_⟩
    have hname := (hj.holds "name" _ rfl).required? (noDefault rfl) (isForm_string stable name)
    obtain ⟨_, _, hget, ht⟩ := (hj.holds "field_type" _ rfl).part? (noDefault rfl) htype
    have hembedded := (hj.holds "embedded" _ rfl).withDefault? false (isForm_bool stable embedded)
      (by rintro ⟨⟩; rfl)
    have hhostTag := (hj.holds "host_tag" _ rfl).optional? rfl hne htag
    rw [Field.ofJson?]
    simp [hname, hget, ht, hembedded, hhostTag]
termination_by structural f

/-- A signature is read back with and without a receiver. -/
theorem Signature.isForm_toJson (s : Signature) (h : s.fits) :
    IsForm stable Signature.ofJson? s.toJson s := by
  cases s with
  | mk recv params results variadic =>
    rw [Signature.fits, Bool.and_eq_true, Bool.and_eq_true] at h
    have hrecv := isForm_receiverToJson recv h.1.1
    have hparams := forall₂_typesToJson params h.1.2
    have hresults := forall₂_typesToJson results h.2
    refine ⟨.member rfl ?_ (.member rfl (isWritten_of_forall₂ hparams) (.member rfl
      (isWritten_of_forall₂ hresults) (.member rfl (.bool variadic) .noMembers))), fun hj => ?_⟩
    -- Whether the receiver is `null` decides what is left of the member that holds it.
    · cases recv with
      | none => exact .null
      | some t => exact (hrecv t rfl).isWritten
    obtain ⟨ps, _, hgetParams, hps⟩ := (hj.holds "params" _ rfl).get? (noDefault rfl)
    obtain ⟨rs, _, hgetResults, hrs⟩ := (hj.holds "results" _ rfl).get? (noDefault rfl)
    obtain ⟨paramParts, hparamParts, hreadParams⟩ := hps.items? hparams
    obtain ⟨resultParts, hresultParts, hreadResults⟩ := hrs.items? hresults
    have hvariadic := (hj.holds "variadic" _ rfl).withDefault? false (isForm_bool stable variadic)
      (by rintro ⟨⟩; rfl)
    have hreceiver := hj.holds "recv" _ rfl
    rw [Signature.ofJson?]
    cases recv with
    | none =>
      simp [hreceiver.getOptional?_null, hgetParams, hgetResults, hparamParts, hreadParams,
        hresultParts, hreadResults, hvariadic]
    | some t =>
      obtain ⟨r, _, hget, hr⟩ := hreceiver.getOptional?_some
        (fun heq => t.toJson_ne_null (Option.some_inj.mp heq).symm) t.toJson_ne_null
      simp [hget, (hrecv t rfl).decode_eq hr, hgetParams, hgetResults, hparamParts, hreadParams,
        hresultParts, hreadResults, hvariadic]
termination_by structural s

end

end GoLua
