import GoLua.Proofs.Json.Text
import Mathlib.Data.List.Forall2

/-!
# Forms of data

A JSON value is a *form* of a datum if it comes back from its text, where the doubles in it do, and
the decoder makes the datum of it (`IsForm`). Members that have what a missing member has may be
left out anywhere in it (`LeavesOut`), and the decoder makes the same datum of what is left.

A decoder looks its members up by their keys, and so its proof does: an object still *holds* what
it was written with under a key, in the member or by leaving it out (`Holds`), and each way of
reading a member has one lemma about what is held.
-/

namespace GoLua.Json

variable {stable : Double → Prop}

/-! ### Leaving members out -/

/-- What is meant by leaving a member out, where that is allowed. -/
def defaultOf? : String → Option Json
  | "embedded" | "variadic" | "escaping" => some (.bool false)
  | "host_tag" | "recv" | "package" | "host" => some .null
  | "low" | "high" | "max" | "asserted" | "key" => some .null
  | "types" | "constants" | "definitions" | "uses" | "selections" => some (.object [])
  | "boxed_scalars" => some (.array [])
  | "current_package" => some (.string "main")
  | _ => none

/-- A key that has no default holds no default value. -/
theorem noDefault {key : String} {v : Json} (h : defaultOf? key = none) :
    defaultOf? key ≠ some v := by
  rw [h]
  rintro ⟨⟩

mutual

/-- The second value is the first one where some members that have their default are left out,
anywhere in it. -/
inductive LeavesOut : Json → Json → Prop
  | same (j : Json) : LeavesOut j j
  | array {vs ws : List Json} (h : ItemsLeaveOut vs ws) : LeavesOut (.array vs) (.array ws)
  | object {ms ns : List (Key × Json)} (h : MembersLeaveOut ms ns) :
    LeavesOut (.object ms) (.object ns)

/-- Members are left out in the items of an array. -/
inductive ItemsLeaveOut : List Json → List Json → Prop
  | nil : ItemsLeaveOut [] []
  | cons {v w : Json} {vs ws : List Json} (h : LeavesOut v w) (hs : ItemsLeaveOut vs ws) :
    ItemsLeaveOut (v :: vs) (w :: ws)

/-- Members of an object are left out, or members in what they hold. -/
inductive MembersLeaveOut : List (Key × Json) → List (Key × Json) → Prop
  | nil : MembersLeaveOut [] []
  | keep {key : Key} {v w : Json} {ms ns : List (Key × Json)} (h : LeavesOut v w)
    (hs : MembersLeaveOut ms ns) : MembersLeaveOut ((key, v) :: ms) ((key, w) :: ns)
  | leave {key : Key} {v : Json} {ms ns : List (Key × Json)} (h : defaultOf? key.text = some v)
    (hs : MembersLeaveOut ms ns) : MembersLeaveOut ((key, v) :: ms) ns

end

/-- Leaving out nothing is a case of leaving out. -/
theorem ItemsLeaveOut.same (vs : List Json) : ItemsLeaveOut vs vs := by
  induction vs with
  | nil => exact .nil
  | cons v vs ih => exact .cons (.same v) ih

theorem MembersLeaveOut.same (ms : List (Key × Json)) : MembersLeaveOut ms ms := by
  induction ms with
  | nil => exact .nil
  | cons m ms ih => exact .keep (.same m.2) ih

/-- Of an array only the items can lose members. -/
theorem LeavesOut.of_array {vs : List Json} {j : Json} (h : (Json.array vs).LeavesOut j) :
    ∃ ws, j = .array ws ∧ ItemsLeaveOut vs ws := by
  cases h with
  | same => exact ⟨vs, rfl, .same vs⟩
  | array h => exact ⟨_, rfl, h⟩

/-- Of an object its members do, and what they hold. -/
theorem LeavesOut.of_object {ms : List (Key × Json)} {j : Json}
    (h : (Json.object ms).LeavesOut j) : ∃ ns, j = .object ns ∧ MembersLeaveOut ms ns := by
  cases h with
  | same => exact ⟨ms, rfl, .same ms⟩
  | object h => exact ⟨_, rfl, h⟩

mutual

/-- Leaving members out leaves what can be written. -/
theorem LeavesOut.isWritten {j j' : Json} (h : j.LeavesOut j') (hj : j.IsWritten stable) :
    j'.IsWritten stable := by
  cases h with
  | same => exact hj
  | array h =>
    cases hj with
    | array hvs => exact .array (h.isWritten hvs)
  | object h =>
    cases hj with
    | object hkeys hms =>
      obtain ⟨hkeys, hns⟩ := h.isWritten hkeys hms
      exact .object hkeys hns

/-- What has lost members can be written when the whole could. -/
theorem ItemsLeaveOut.isWritten {vs ws : List Json} (h : ItemsLeaveOut vs ws)
    (hvs : ∀ v ∈ vs, v.IsWritten stable) : ∀ w ∈ ws, w.IsWritten stable := by
  cases h with
  | nil => exact hvs
  | cons h hs =>
    rw [List.forall_mem_cons] at hvs ⊢
    exact ⟨h.isWritten hvs.1, hs.isWritten hvs.2⟩

/-- Its keys can, and so can their values. -/
theorem MembersLeaveOut.isWritten {ms ns : List (Key × Json)} (h : MembersLeaveOut ms ns)
    (hkeys : ∀ m ∈ ms, m.1.IsWritten) (hms : ∀ m ∈ ms, m.2.IsWritten stable) :
    (∀ n ∈ ns, n.1.IsWritten) ∧ ∀ n ∈ ns, n.2.IsWritten stable := by
  cases h with
  | nil => exact ⟨hkeys, hms⟩
  | keep h hs =>
    rw [List.forall_mem_cons] at hkeys hms
    obtain ⟨hkeys', hns⟩ := hs.isWritten hkeys.2 hms.2
    exact ⟨List.forall_mem_cons.mpr ⟨hkeys.1, hkeys'⟩,
      List.forall_mem_cons.mpr ⟨h.isWritten hms.1, hns⟩⟩
  | leave _ hs =>
    rw [List.forall_mem_cons] at hkeys hms
    exact hs.isWritten hkeys.2 hms.2

end

mutual

/-- Leaving members out nests nothing deeper. -/
theorem LeavesOut.nesting_le {j j' : Json} (h : j.LeavesOut j') : j'.nesting ≤ j.nesting := by
  cases h with
  | same => exact Nat.le_refl _
  | array h => exact Nat.succ_le_succ h.nesting_le
  | object h => exact Nat.succ_le_succ h.nesting_le

/-- Losing members does not nest deeper. -/
theorem ItemsLeaveOut.nesting_le {vs ws : List Json} (h : ItemsLeaveOut vs ws) :
    itemsNesting ws ≤ itemsNesting vs := by
  cases h with
  | nil => exact Nat.le_refl _
  | cons h hs =>
    have hv := h.nesting_le
    have hvs := hs.nesting_le
    simp only [itemsNesting]
    omega

/-- Nor does it for the members themselves. -/
theorem MembersLeaveOut.nesting_le {ms ns : List (Key × Json)} (h : MembersLeaveOut ms ns) :
    membersNesting ns ≤ membersNesting ms := by
  cases h with
  | nil => exact Nat.le_refl _
  | keep h hs =>
    have hv := h.nesting_le
    have hms := hs.nesting_le
    simp only [membersNesting, memberNesting]
    omega
  | leave _ hs => exact Nat.le_trans hs.nesting_le (Nat.le_max_right _ _)

end

/-! ### Looking members up -/

/-- What an object was written with under a key, it has in a member or left out. -/
inductive Holds (j : Json) (key : String) (v : Json) : Prop
  | kept {p : Part j} (hfind : j.find key = .one p) (h : v.LeavesOut p.value)
  | left (hfind : j.find key = .missing) (h : defaultOf? key = some v)

/-- A key that no member has is missing. -/
theorem find_eq_missing {ms : List (Key × Json)} {key : String}
    (h : ms.filter (·.1.text == key) = []) : (Json.object ms).find key = .missing := by
  rw [find]
  split
  · rfl
  · next heq => simp [h] at heq
  · next hnil _ => exact absurd h hnil

/-- A key that one member has is found, with its value. -/
theorem find_eq_one {ms : List (Key × Json)} {key : String} {m : Key × Json}
    (h : ms.filter (·.1.text == key) = [m]) :
    ∃ hsmaller, (Json.object ms).find key = .one ⟨m.2, hsmaller⟩ := by
  have hmem : m ∈ ms.filter (·.1.text == key) := by
    rw [h]
    exact List.mem_singleton_self m
  refine ⟨sizeOf_lt_of_mem_object (List.mem_filter.mp hmem).1, ?_⟩
  rw [find]
  -- Of the three cases of the filtered list, only that of one member agrees with the hypothesis.
  split
  · next heq => simp [h] at heq
  · next n heq =>
    rw [h] at heq
    cases heq
    rfl
  · next _ hone => exact absurd h (hone m)

/-- The members of a key lose only those that were left out. -/
theorem MembersLeaveOut.filter {ms ns : List (Key × Json)} (h : MembersLeaveOut ms ns)
    (p : Key → Bool) : MembersLeaveOut (ms.filter fun m => p m.1) (ns.filter fun n => p n.1) := by
  -- By induction on the members, along with what is left of them.
  induction ms generalizing ns with
  | nil =>
    cases h
    exact .nil
  | cons m ms ih =>
    cases h with
    | @keep key v w _ ns h hs =>
      simp only [List.filter_cons]
      split
      · exact .keep h (ih hs)
      · exact ih hs
    | @leave key v _ _ h hs =>
      rw [List.filter_cons]
      split
      · exact .leave h (ih hs)
      · exact ih hs

/-- What an object has once under a key, it still holds where members are left out of it. -/
theorem LeavesOut.holds {ms : List (Key × Json)} {j : Json} (h : (Json.object ms).LeavesOut j)
    (key : String) (v : Json) (hkey : ms.filter (·.1.text == key) = [((key : Key), v)]) :
    j.Holds key v := by
  obtain ⟨ns, rfl, hs⟩ := h.of_object
  -- What a look-up sees of the object is a single member, which is kept or left out.
  have hfilter := hs.filter fun k => k.text == key
  rw [hkey] at hfilter
  generalize hns : ns.filter (fun n => n.1.text == key) = found at hfilter
  cases hfilter with
  | keep h hnil =>
    cases hnil
    obtain ⟨_, hfind⟩ := find_eq_one hns
    exact .kept hfind h
  | leave h hnil =>
    cases hnil
    exact .left (find_eq_missing hns) h

section

variable {α : Type} {j v : Json} {key : String} {decode : Json → Option α} {a : α}

/-- What has no default is found under its key. -/
theorem Holds.get? (h : j.Holds key v) (hkey : defaultOf? key ≠ some v) :
    ∃ w hsmaller, j.get? key = some ⟨w, hsmaller⟩ ∧ v.LeavesOut w := by
  cases h with
  | kept hfind h => exact ⟨_, _, by rw [Json.get?, hfind], h⟩
  | left _ h => exact absurd h hkey

/-- A value that is present does not become `null`. -/
theorem LeavesOut.ne_null {w : Json} (h : v.LeavesOut w) (hv : v ≠ .null) : w ≠ .null := by
  rintro rfl
  cases h
  exact hv rfl

/-- What is null may be missing. -/
theorem Holds.getOptional?_null (h : j.Holds key .null) : j.getOptional? key = some none := by
  cases h with
  | @kept p hfind h =>
    obtain ⟨w, hsmaller⟩ := p
    cases h
    rw [Json.getOptional?, hfind]
  | left hfind _ => rw [Json.getOptional?, hfind]

/-- A value without a default is still there, unless it was `null`. -/
theorem Holds.getOptional?_some (h : j.Holds key v) (hkey : defaultOf? key ≠ some v)
    (hv : v ≠ .null) :
    ∃ w hsmaller, j.getOptional? key = some (some ⟨w, hsmaller⟩) ∧ v.LeavesOut w := by
  cases h with
  | @kept p hfind h =>
    obtain ⟨w, hsmaller⟩ := p
    refine ⟨w, hsmaller, ?_, h⟩
    have hw := h.ne_null hv
    rw [Json.getOptional?, hfind]
    cases w
    case null => exact absurd rfl hw
    all_goals rfl
  | left _ h => exact absurd h hkey

/-! ### Forms -/

/-- A value that is written for a datum: it is read back from its text, and whatever is left out of
it, the decoder makes the datum of it. -/
structure IsForm (stable : Double → Prop) (decode : Json → Option α) (v : Json) (a : α) : Prop where
  isWritten : v.IsWritten stable
  decode_eq : ∀ {w}, v.LeavesOut w → decode w = some a

/-- A text of a form is read as the datum, if nothing in it is nested too deep. -/
theorem IsForm.read {format : Format} (hformat : format.Lawful stable)
    (h : IsForm stable decode v a) (hdepth : v.nesting ≤ dataDepth) (layout : Layout) (hj : v.LeavesOut j) :
    (format.read (format.write layout j)).bind decode = some a := by
  have hread := hformat.readsBack layout (hj.isWritten h.isWritten)
    (Nat.le_trans hj.nesting_le hdepth)
  rw [hread, Option.bind_some, h.decode_eq hj]

/-- A part is found under its key, and read. -/
theorem Holds.part? (h : j.Holds key v) (hkey : defaultOf? key ≠ some v)
    (hv : IsForm stable decode v a) :
    ∃ w hsmaller, j.get? key = some ⟨w, hsmaller⟩ ∧ decode w = some a := by
  obtain ⟨w, hsmaller, hget, hw⟩ := h.get? hkey
  exact ⟨w, hsmaller, hget, hv.decode_eq hw⟩

/-- A member that has to be present is read back. -/
theorem Holds.required? (h : j.Holds key v) (hkey : defaultOf? key ≠ some v)
    (hv : IsForm stable decode v a) : j.required? key decode = some a := by
  obtain ⟨w, _, hget, hw⟩ := h.part? hkey hv
  rw [Json.required?, hget, Option.bind_some, hw]

/-- One that may be missing is read back too, as long as what is left out is the default. -/
theorem Holds.withDefault? (h : j.Holds key v) (default : α) (hv : IsForm stable decode v a)
    (hkey : defaultOf? key = some v → default = a) :
    j.withDefault? key default decode = some a := by
  cases h with
  | kept hfind h =>
    rw [Json.withDefault?, hfind]
    exact hv.decode_eq h
  | left hfind h => rw [Json.withDefault?, hfind, hkey h]

theorem isForm_bool (stable : Double → Prop) (b : Bool) : IsForm stable bool? (.bool b) b :=
  ⟨.bool b, by rintro _ ⟨⟩; rfl⟩

theorem isForm_string (stable : Double → Prop) (s : String) : IsForm stable string? (.string s) s :=
  ⟨.string s, by rintro _ ⟨⟩; rfl⟩

theorem isForm_word32 (stable : Double → Prop) {n : Nat} (h : n < 0x100000000) :
    IsForm stable word32? (.nat n) n :=
  ⟨.int false n, by rintro _ ⟨⟩; exact if_pos h⟩

theorem isForm_word64 (stable : Double → Prop) {n : Nat} (h : n < 0x10000000000000000) :
    IsForm stable word64? (.nat n) n :=
  ⟨.int false n, by rintro _ ⟨⟩; exact if_pos h⟩

theorem isForm_label (stable : Double → Prop) {ofLabel? : String → Option α} {s : String}
    (h : ofLabel? s = some a) :
    IsForm stable (fun v => v.label?.bind ofLabel?) (.string s) a :=
  ⟨.string s, by rintro _ ⟨⟩; exact h⟩

/-- So is an integer of 128 bits. -/
theorem isForm_int128 (stable : Double → Prop) {n : Int} (hleast : Int128.least ≤ n)
    (hgreatest : n ≤ Int128.greatest) :
    IsForm stable int128? (.ofInt n) n := by
  refine ⟨.int _ _, ?_⟩
  rintro _ ⟨⟩
  have hn : (if decide (n < 0) then -(n.natAbs : Int) else n.natAbs) = n := by
    simp only [decide_eq_true_eq]
    split <;> omega
  rw [ofInt, int128?]
  simp only [hn]
  exact if_pos ⟨hleast, hgreatest⟩

theorem isForm_double {x : Double} (h : stable x) : IsForm stable double? (.real x) x :=
  ⟨.real h, by rintro _ ⟨⟩; rfl⟩

/-- A value that is present is read as such. -/
theorem nullable?_of_ne_null (hv : v ≠ .null) : nullable? decode v = (decode v).map some := by
  cases v
  case null => exact absurd rfl hv
  all_goals rfl

/-- An optional value is read back if its form is never `null`. -/
theorem isForm_ofOption {encode : α → Json} {o : Option α} (hne : ∀ a ∈ o, encode a ≠ .null)
    (h : ∀ a ∈ o, IsForm stable decode (encode a) a) :
    IsForm stable (nullable? decode) (ofOption encode o) o := by
  cases o with
  | none => exact ⟨.null, by rintro _ ⟨⟩; rfl⟩
  | some a =>
    have ha := h a rfl
    refine ⟨ha.isWritten, fun {w} hw => ?_⟩
    rw [nullable?_of_ne_null (hw.ne_null (hne a rfl)), ha.decode_eq hw]
    rfl

/-- What may be absent may be missing or null. -/
theorem Holds.optional? {encode : α → Json} {o : Option α} (h : j.Holds key (ofOption encode o))
    (hkey : defaultOf? key = some .null) (hne : ∀ a ∈ o, encode a ≠ .null)
    (hv : ∀ a ∈ o, IsForm stable decode (encode a) a) : j.optional? key decode = some o := by
  refine h.withDefault? none (isForm_ofOption hne hv) fun heq => ?_
  rw [hkey, Option.some_inj] at heq
  cases o with
  | none => rfl
  | some a => exact absurd heq.symm (hne a rfl)

/-! ### Arrays -/

/-- A list of values is read back item by item. -/
theorem ItemsLeaveOut.mapM {vs ws : List Json} {as : List α}
    (hforms : List.Forall₂ (IsForm stable decode) vs as) (h : ItemsLeaveOut vs ws) :
    ws.mapM decode = some as := by
  induction hforms generalizing ws with
  | nil =>
    cases h
    rfl
  | cons hv _ ih =>
    cases h with
    | cons h hs =>
      rw [List.mapM_cons, hv.decode_eq h, ih hs]
      rfl

/-- A list of forms can be written. -/
theorem isWritten_of_forall₂ {vs : List Json} {as : List α}
    (hforms : List.Forall₂ (IsForm stable decode) vs as) : (Json.array vs).IsWritten stable := by
  refine .array ?_
  induction hforms with
  | nil => exact List.forall_mem_nil _
  | cons hv _ ih => exact List.forall_mem_cons.mpr ⟨hv.isWritten, ih⟩

/-- A list of forms is the form of the list. -/
theorem isForm_list {vs : List Json} {as : List α}
    (hforms : List.Forall₂ (IsForm stable decode) vs as) :
    IsForm stable (list? decode) (.array vs) as := by
  refine ⟨isWritten_of_forall₂ hforms, fun hw => ?_⟩
  obtain ⟨ws, rfl, hs⟩ := hw.of_array
  exact hs.mapM hforms

/-- An array of forms, one for each item. -/
theorem isForm_listMap {encode : α → Json} {as : List α}
    (h : ∀ a ∈ as, IsForm stable decode (encode a) a) :
    IsForm stable (list? decode) (.array (as.map encode)) as :=
  isForm_list (List.forall₂_map_left_iff.mpr (List.forall₂_same.mpr h))

/-- The items of an array that lost members are still as many, and are read back. -/
theorem LeavesOut.items? {vs : List Json} {as : List α} {w : Json} (h : (Json.array vs).LeavesOut w)
    (hforms : List.Forall₂ (IsForm stable decode) vs as) :
    ∃ parts, w.items? = some parts ∧ parts.mapM (fun p => decode p.value) = some as := by
  obtain ⟨ws, rfl, hs⟩ := h.of_array
  refine ⟨_, rfl, ?_⟩
  rw [← hs.mapM hforms]
  conv_rhs => rw [← List.attach_map_subtype_val ws, List.mapM_map]
  rw [List.mapM_map]
  rfl

/-! ### Objects -/

theorem IsWritten.noMembers : (Json.object []).IsWritten stable :=
  .object (List.forall_mem_nil _) (List.forall_mem_nil _)

/-- An object can be written if its first member and the rest of it can. -/
theorem IsWritten.member {key : Key} {ms : List (Key × Json)} (hkey : key.IsWritten)
    (hv : v.IsWritten stable) (hms : (Json.object ms).IsWritten stable) :
    (Json.object ((key, v) :: ms)).IsWritten stable := by
  cases hms with
  | object hkeys hms =>
    exact .object (List.forall_mem_cons.mpr ⟨hkey, hkeys⟩) (List.forall_mem_cons.mpr ⟨hv, hms⟩)

/-- The content of one of several alternatives is found with its tag. -/
theorem LeavesOut.variant? {tag : String} {w : Json} (h : (variant tag v).LeavesOut w)
    (hkey : defaultOf? tag ≠ some v) :
    ∃ c hsmaller, w.variant? = some (tag, ⟨c, hsmaller⟩) ∧ v.LeavesOut c := by
  obtain ⟨ns, rfl, hs⟩ := h.of_object
  cases hs with
  | keep hv hs =>
    cases hs
    exact ⟨_, _, rfl, hv⟩
  | leave hdefault _ => exact absurd hdefault hkey

/-- One of several alternatives, whose tag says how its content is read. -/
theorem isForm_variant {tag : String} (hkey : defaultOf? tag ≠ some v)
    (htag : (tag : Key).IsWritten) (hv : v.IsWritten stable)
    (h : ∀ {j w hsmaller}, j.variant? = some (tag, ⟨w, hsmaller⟩) → v.LeavesOut w →
      decode j = some a) : IsForm stable decode (variant tag v) a := by
  refine ⟨.member htag hv .noMembers, fun hj => ?_⟩
  obtain ⟨w, _, hvariant, hw⟩ := hj.variant? hkey
  exact h hvariant hw

end

end GoLua.Json
