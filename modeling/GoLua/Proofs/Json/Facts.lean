import GoLua.Facts.Json
import GoLua.Proofs.Json.Type

/-!
# Forms of facts

What objects, selections, constants and tables are written as is a form of them, and so is what all
the facts about a unit are written as (`Facts.isForm_toJson`).
-/

namespace GoLua

open Json

variable (stable : Double → Prop)

/-! ### Objects and selections -/

namespace Object

/-- Whether the lengths in the type of an object fit. -/
def fits (obj : Object) : Bool :=
  obj.type.fits

/-- An object is read back from its form. -/
theorem isForm_toJson (obj : Object) (h : obj.fits) :
    IsForm stable Object.ofJson? obj.toJson obj := by
  obtain ⟨name, kind, type, package, escaping⟩ := obj
  have hkind : IsForm stable (fun k => k.label?.bind ObjectKind.ofLabel?) (.string kind.label)
      kind := isForm_label stable (by cases kind <;> decide)
  have htype := type.isForm_toJson stable h
  have hpackage : ∀ p ∈ package, IsForm stable string? (.string p) p :=
    fun p _ => isForm_string stable p
  have hne : ∀ p ∈ package, Json.string p ≠ .null := by rintro _ _ ⟨⟩
  refine ⟨.member rfl (.string name) (.member rfl hkind.isWritten (.member rfl htype.isWritten
    (.member rfl (isForm_ofOption hne hpackage).isWritten (.member rfl (.bool escaping)
      .noMembers)))), fun hj => ?_⟩
  -- Each member is read on its own, the last two with their defaults.
  have hname := (hj.holds "name" _ rfl).required? (noDefault rfl) (isForm_string stable name)
  have hkind := (hj.holds "kind" _ rfl).required? (noDefault rfl) hkind
  have htype := (hj.holds "type" _ rfl).required? (noDefault rfl) htype
  have hpackage := (hj.holds "package" _ rfl).optional? rfl hne hpackage
  have hescaping := (hj.holds "escaping" _ rfl).withDefault? false (isForm_bool stable escaping)
    (by rintro ⟨⟩; rfl)
  rw [Object.ofJson?]
  simp [hname, hkind, htype, hpackage, hescaping]

end Object

namespace Selection

/-- Whether the lengths and places in a selection fit. -/
def fits (s : Selection) : Bool :=
  s.recv.fits && s.index.all (· < 0x10000000000000000) && s.obj.fits && s.type.fits

/-- A selection is read back from its form. -/
theorem isForm_toJson (s : Selection) (h : s.fits) :
    IsForm stable Selection.ofJson? s.toJson s := by
  obtain ⟨kind, recv, index, obj, type⟩ := s
  simp only [fits, Bool.and_eq_true, List.all_eq_true, decide_eq_true_iff] at h
  have hkind : IsForm stable (fun k => k.label?.bind SelectionKind.ofLabel?) (.string kind.label)
      kind := isForm_label stable (by cases kind <;> decide)
  have hrecv := recv.isForm_toJson stable h.1.1.1
  have hindex := isForm_listMap fun i (hi : i ∈ index) => isForm_word64 stable (h.1.1.2 i hi)
  have hobj := obj.isForm_toJson stable h.1.2
  have htype := type.isForm_toJson stable h.2
  refine ⟨.member rfl hkind.isWritten (.member rfl hrecv.isWritten (.member rfl hindex.isWritten
    (.member rfl hobj.isWritten (.member rfl htype.isWritten .noMembers)))), fun hj => ?_⟩
  have hkind := (hj.holds "kind" _ rfl).required? (noDefault rfl) hkind
  -- The receiver of a signature may be missing; that of a selection is a type, and is always there.
  have hrecv := (hj.holds "recv" _ rfl).required?
    (fun heq => recv.toJson_ne_null (Option.some_inj.mp heq).symm) hrecv
  have hindex := (hj.holds "index" _ rfl).required? (noDefault rfl) hindex
  have hobj := (hj.holds "obj" _ rfl).required? (noDefault rfl) hobj
  have htype := (hj.holds "type" _ rfl).required? (noDefault rfl) htype
  rw [Selection.ofJson?]
  simp [hkind, hrecv, hindex, hobj, htype]

end Selection

/-! ### Constants -/

namespace Constant

/-- The doubles that a constant is made of. -/
def doubles : Constant → List Double
  | .float x => [x]
  | .complex re im => [re, im]
  | _ => []

/-- Whether an integer constant fits a signed cell of 128 bits. -/
def fits : Constant → Bool
  | .int n => Int128.least ≤ n && n ≤ Int128.greatest
  | _ => true

/-- A constant is read back if its doubles are. -/
theorem isForm_toJson (c : Constant) (h : c.fits) (hdoubles : ∀ x ∈ c.doubles, stable x) :
    IsForm stable Constant.ofJson? c.toJson c := by
  -- Only numbers have conditions: integers fit into 128 bits, doubles are read back from their
  -- text.
  cases c with
  | bool b =>
    refine isForm_variant (noDefault rfl) rfl (.bool b) fun htag hbody => ?_
    rw [Constant.ofJson?, htag]
    simp [(isForm_bool stable b).decode_eq hbody]
  | int n =>
    rw [fits, Bool.and_eq_true, decide_eq_true_iff, decide_eq_true_iff] at h
    have hn := isForm_int128 stable h.1 h.2
    refine isForm_variant (noDefault rfl) rfl hn.isWritten fun htag hbody => ?_
    rw [Constant.ofJson?, htag]
    simp [hn.decode_eq hbody]
  | float x =>
    have hx := isForm_double (hdoubles x (by simp [doubles]))
    refine isForm_variant (noDefault rfl) rfl hx.isWritten fun htag hbody => ?_
    rw [Constant.ofJson?, htag]
    simp [hx.decode_eq hbody]
  | complex re im =>
    have hparts := isForm_list (.cons (isForm_double (hdoubles re (by simp [doubles])))
      (.cons (isForm_double (hdoubles im (by simp [doubles]))) .nil))
    refine isForm_variant (noDefault rfl) rfl hparts.isWritten fun htag hbody => ?_
    rw [Constant.ofJson?, htag]
    simp [hparts.decode_eq hbody]
  | string s =>
    refine isForm_variant (noDefault rfl) rfl (.string s) fun htag hbody => ?_
    rw [Constant.ofJson?, htag]
    simp [(isForm_string stable s).decode_eq hbody]

end Constant

/-! ### Tables -/

/-- No member that may be missing has a number as its key. -/
theorem defaultOf?_toString (n : Nat) : defaultOf? (toString n) = none := by
  have hdigits : (toString n).toList.all Char.isDigit = true := by
    rw [toList_toString]
    exact List.all_eq_true.mpr (all_toDigits n)
  unfold defaultOf?
  split
  all_goals first | rfl | (next hkey => rw [hkey] at hdigits; exact absurd hdigits (by decide))

/-- The digits of a key need no escape. -/
theorem needsEscape_of_isDigit {c : Char} (h : c.isDigit) : needsEscape c = false := by
  have hne {d : Char} (hd : d.isDigit = false) : (c == d) = false := by
    rw [beq_eq_false_iff_ne]
    rintro rfl
    rw [hd] at h
    cases h
  have hspace : ¬ c < ' ' := by
    rw [Char.isDigit, Bool.and_eq_true, decide_eq_true_iff] at h
    have hdigit : (32 : UInt32) ≤ c.val := UInt32.le_trans (by decide) h.1
    exact UInt32.not_lt.mpr hdigit
  rw [needsEscape, hne (by decide), hne (by decide), decide_eq_false hspace]
  rfl

/-- A number is a key that is written without escapes. -/
theorem isWritten_toString (n : Nat) : (toString n : Key).IsWritten := by
  refine (List.any_eq_false.mpr fun c hc => ?_).symm
  rw [toList_toString] at hc
  rw [needsEscape_of_isDigit (all_toDigits n c hc)]
  exact Bool.false_ne_true

/-- The number of a node is read back from the key it is written as. -/
theorem nodeIdOfKey?_toString {id : NodeId} (h : id < 0x100000000) :
    nodeIdOfKey? (toString id : Key) = some id := by
  have hwhole := isWhole_toDigits id
  have hall : (Nat.toDigits 10 id).all Char.isDigit = true := List.all_eq_true.mpr (all_toDigits id)
  unfold nodeIdOfKey?
  dsimp only
  rw [toList_toString]
  split
  · next heq => exact absurd heq hwhole.1
  · next heq => exact absurd heq (hwhole.2 _ _)
  · rw [hall, foldl_toDigits]
    simp [h]

namespace NodeTable

variable {α : Type} {encode : α → Json} {decode : Json → Option α} {stable}

/-- A table takes an entry of a new node at its end. -/
theorem put_of_not_mem {id : NodeId} {a : α} {es : List (NodeId × α)}
    (h : id ∉ es.map Prod.fst) : put id a es = es ++ [(id, a)] := by
  induction es with
  | nil => rfl
  | cons e es ih =>
    rw [List.map_cons, List.mem_cons, not_or] at h
    rw [put, if_neg (Ne.symm h.1), ih h.2]
    rfl

/-- Entries about distinct nodes are entered in their order. -/
theorem entries_foldl_insert (t : NodeTable α) (es : List (NodeId × α))
    (h : ((t.entries ++ es).map Prod.fst).Nodup) :
    (es.foldl (fun t e => t.insert e.1 e.2) t).entries = t.entries ++ es := by
  induction es generalizing t with
  | nil => simp
  | cons e es ih =>
    have hnew : e.1 ∉ t.entries.map Prod.fst := by
      rw [List.map_append, List.map_cons, List.nodup_append] at h
      exact fun hmem => h.2.2 _ hmem _ List.mem_cons_self rfl
    have hentries : (t.insert e.1 e.2).entries = t.entries ++ [e] := put_of_not_mem hnew
    rw [List.foldl_cons, ih _ (by rw [hentries]; simpa using h), hentries]
    simp

/-- A table is the table of its entries. -/
theorem ofList_entries (t : NodeTable α) : ofList t.entries = t := by
  have hentries : (ofList t.entries).entries = t.entries :=
    entries_foldl_insert .empty t.entries t.distinct
  generalize ofList t.entries = s at hentries
  obtain ⟨es, hs⟩ := s
  obtain ⟨fs, ht⟩ := t
  cases hentries
  rfl

/-- A table that lost members of its values still has all of its entries. -/
theorem mapM_of_membersLeaveOut {es : List (NodeId × α)} {ns : List (Key × Json)}
    (hids : ∀ e ∈ es, e.1 < 0x100000000) (h : ∀ e ∈ es, IsForm stable decode (encode e.2) e.2)
    (hns : MembersLeaveOut (es.map fun e => ((toString e.1 : Key), encode e.2)) ns) :
    (ns.mapM fun n => do
      let id ← nodeIdOfKey? n.1
      let a ← decode n.2
      return (id, a)) = some es := by
  induction es generalizing ns with
  | nil =>
    cases hns
    rfl
  | cons e es ih =>
    rw [List.forall_mem_cons] at hids h
    cases hns with
    | keep hv hs =>
      rw [List.mapM_cons, ih hids.2 h.2 hs, nodeIdOfKey?_toString hids.1, h.1.decode_eq hv]
      rfl
    | leave hkey _ =>
      -- No entry is left out, for its key is a number.
      rw [defaultOf?_toString] at hkey
      cases hkey

/-- A table is read back when its values are. -/
theorem isForm_toJson (t : NodeTable α) (hids : ∀ e ∈ t.entries, e.1 < 0x100000000)
    (h : ∀ e ∈ t.entries, IsForm stable decode (encode e.2) e.2) :
    IsForm stable (NodeTable.ofJson? decode) (t.toJson encode) t := by
  refine ⟨.object ?_ ?_, fun hw => ?_⟩
  · rintro _ hm
    obtain ⟨e, _, rfl⟩ := List.mem_map.mp hm
    exact isWritten_toString e.1
  · rintro _ hm
    obtain ⟨e, he, rfl⟩ := List.mem_map.mp hm
    exact (h e he).isWritten
  · obtain ⟨ns, rfl, hns⟩ := hw.of_object
    rw [NodeTable.ofJson?, mapM_of_membersLeaveOut hids h hns]
    exact congrArg some t.ofList_entries

/-- A table that may be missing is empty. -/
theorem empty_eq {key : String} (t : NodeTable α) (hkey : defaultOf? key = some (.object []))
    (h : defaultOf? key = some (t.toJson encode)) : .empty = t := by
  rw [hkey] at h
  obtain ⟨es, hs⟩ := t
  cases es with
  | nil => rfl
  | cons e es => cases h

end NodeTable

/-! ### Facts -/

namespace Facts

/-- Whether numbers of nodes fit a word of 32 bits, and what is known about the nodes fits too. -/
def fits (f : Facts) : Bool :=
  f.types.entries.all (fun e => e.1 < 0x100000000 && e.2.fits) &&
    f.constants.entries.all (fun e => e.1 < 0x100000000 && e.2.fits) &&
    f.definitions.entries.all (fun e => e.1 < 0x100000000 && e.2.fits) &&
    f.uses.entries.all (fun e => e.1 < 0x100000000 && e.2.fits) &&
    f.selections.entries.all (fun e => e.1 < 0x100000000 && e.2.fits)

/-- The doubles that the constants are made of. -/
def doubles (f : Facts) : List Double :=
  f.constants.entries.flatMap fun e => e.2.doubles

/-- Facts are read back from their form, table by table. -/
theorem isForm_toJson (f : Facts) (h : f.fits) (hdoubles : ∀ x ∈ f.doubles, stable x) :
    IsForm stable Facts.ofJson? f.toJson f := by
  simp only [fits, Bool.and_eq_true, List.all_eq_true, decide_eq_true_iff] at h
  obtain ⟨⟨⟨⟨htypes, hconstants⟩, hdefinitions⟩, huses⟩, hselections⟩ := h
  -- Before reading, each table is a form; after it, each is found under its name or was left out
  -- for being empty.
  have htypes := f.types.isForm_toJson (fun e he => (htypes e he).1)
    fun e he => e.2.isForm_toJson stable (htypes e he).2
  have hconstants := f.constants.isForm_toJson (fun e he => (hconstants e he).1)
    fun e he => e.2.isForm_toJson stable (hconstants e he).2
      fun x hx => hdoubles x (List.mem_flatMap.mpr ⟨e, he, hx⟩)
  have hdefinitions := f.definitions.isForm_toJson (fun e he => (hdefinitions e he).1)
    fun e he => e.2.isForm_toJson stable (hdefinitions e he).2
  have huses := f.uses.isForm_toJson (fun e he => (huses e he).1)
    fun e he => e.2.isForm_toJson stable (huses e he).2
  have hselections := f.selections.isForm_toJson (fun e he => (hselections e he).1)
    fun e he => e.2.isForm_toJson stable (hselections e he).2
  refine ⟨.member rfl htypes.isWritten (.member rfl hconstants.isWritten (.member rfl
    hdefinitions.isWritten (.member rfl huses.isWritten (.member rfl hselections.isWritten
      .noMembers)))), fun hj => ?_⟩
  have htypes := (hj.holds "types" _ rfl).withDefault? .empty htypes (f.types.empty_eq rfl)
  have hconstants := (hj.holds "constants" _ rfl).withDefault? .empty hconstants
    (f.constants.empty_eq rfl)
  have hdefinitions := (hj.holds "definitions" _ rfl).withDefault? .empty hdefinitions
    (f.definitions.empty_eq rfl)
  have huses := (hj.holds "uses" _ rfl).withDefault? .empty huses (f.uses.empty_eq rfl)
  have hselections := (hj.holds "selections" _ rfl).withDefault? .empty hselections
    (f.selections.empty_eq rfl)
  obtain ⟨ns, rfl, _⟩ := hj.of_object
  rw [Facts.ofJson?]
  simp [isObject, htypes, hconstants, hdefinitions, huses, hselections]

end Facts

end GoLua
