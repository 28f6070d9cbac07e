import GoLua.Proofs.Address

/-!
# Slots of fields

The accessor of a field is kept in the struct, in a slot that is named after the way to the field: the
names on the way, joined by underscores, as a key. The accessor is found again by that name alone.

Names may have underscores themselves, so a way of two names and the name of one field may be joined to the
same (`fieldSlot_shared`). Ways whose names have only letters and digits are told apart
(`joinedNames_inj`). `Lower.addresses_of_fields` says when two fields share a slot, and that the slot
is all that tells their accessors apart.
-/

namespace GoLua

open Lower Template Lua

/-! ### Joined names -/

section

variable {names names' : List String}

/-- **Slots** are the same just for ways whose joined names have one key. -/
theorem fieldSlot_eq_iff :
    fieldSlot names = fieldSlot names' ↔ SameKey (joinedNames names) (joinedNames names') := by
  rw [fieldSlot, fieldSlot, String.append_right_inj, accessorKey_eq_iff]

/-- Names that Lua can spell are joined to one. -/
theorem isNameChar_of_mem_joinedNames (h : ∀ name ∈ names, ∀ c ∈ name.toList, isNameChar c) :
    ∀ c ∈ (joinedNames names).toList, isNameChar c := by
  refine Text.intercalate_induction (P := fun t => ∀ c ∈ t.toList, isNameChar c) (fun _ h => (nomatch h))
    (fun s t hs ht => ?_) h
  simp only [String.toList_append, List.forall_mem_append]
  exact ⟨⟨hs, by decide⟩, ht⟩

/-- For names that Lua can spell, slots are the same just if the joined names are. -/
theorem fieldSlot_eq_iff_of_isNameChar (h : ∀ name ∈ names, ∀ c ∈ name.toList, isNameChar c)
    (h' : ∀ name ∈ names', ∀ c ∈ name.toList, isNameChar c) :
    fieldSlot names = fieldSlot names' ↔ joinedNames names = joinedNames names' := by
  rw [fieldSlot, fieldSlot, String.append_right_inj,
    accessorKey_of_forall (isNameChar_of_mem_joinedNames h),
    accessorKey_of_forall (isNameChar_of_mem_joinedNames h')]

/-- **Names without underscores** can be read back from what they are joined to. -/
theorem joinedNames_inj (h : ∀ name ∈ names, '_' ∉ name.toList) (h' : ∀ name ∈ names', '_' ∉ name.toList)
    (hne : names ≠ []) (hne' : names' ≠ []) : joinedNames names = joinedNames names' ↔ names = names' := by
  -- The underscores are where the names were joined, and nowhere else.
  have hsplit {ns : List String} (hns : ∀ name ∈ ns, '_' ∉ name.toList) (hne : ns ≠ []) :
      (joinedNames ns).toList.splitOn '_' = ns.map String.toList := by
    rw [joinedNames, String.toList_intercalate]
    refine List.splitOn_intercalate '_' (fun cs hcs => ?_) (by simpa using hne)
    obtain ⟨name, hname, rfl⟩ := List.mem_map.mp hcs
    exact hns name hname
  constructor
  · intro heq
    have hlists : names.map String.toList = names'.map String.toList := by
      rw [← hsplit h hne, ← hsplit h' hne', heq]
    exact List.map_injective_iff.mpr (fun _ _ => String.toList_injective) hlists
  · rintro rfl
    rfl

end

/-! ### Addresses -/

/-- **Addresses of fields.** Where the base is lowered, the address of a field is the accessor of the field,
kept in a slot of the base. Compared with the names on another way:

* the slots are the same just if the joined names have the same key;
* if Lua can spell all names, the slots are the same just if the joined names are;
* if all names are of letters and digits, the slots are the same just if the ways are. -/
theorem Lower.addresses_of_fields {env : Env} {s t : FunctionState} {ν : Node} {operand base : Expr}
    {path : FieldPath} {f : Fragment} (h : env.TakesAddress s ν operand)
    (hselects : env.Selects s operand.unparen base path) (hnames : ∀ name ∈ path.names, Inert name)
    (hunknown : env.constant? s base.id = none) (hbase : (lower base none).runIn env s = (.ok f, t)) :
    (∃ g t₁ t', (lower (.unary ν .addrOf operand) none).runIn env s = (.ok g, t') ∧
      Matches Eq t t₁ ∧ Repeats base f t₁ false (fun b =>
        cachedAccessor (b ++ "." ++ fieldSlot path.names) (b ++ accessChain path.names)) g t') ∧
    ∀ names : List String,
      (fieldSlot path.names = fieldSlot names ↔
        SameKey (joinedNames path.names) (joinedNames names)) ∧
      ((∀ name ∈ path.names ++ names, ∀ c ∈ name.toList, isNameChar c) →
        (fieldSlot path.names = fieldSlot names ↔ joinedNames path.names = joinedNames names)) ∧
      ((∀ name ∈ path.names ++ names, ∀ c ∈ name.toList, c.isAlphanum) →
        path.names ≠ [] → names ≠ [] →
          (fieldSlot path.names = fieldSlot names ↔ path.names = names)) := by
  refine ⟨lower_address_field h hselects hnames hunknown hbase, fun names => ⟨fieldSlot_eq_iff, ?_, ?_⟩⟩
  · intro hspelled
    obtain ⟨hfirst, hsecond⟩ := List.forall_mem_append.mp hspelled
    exact fieldSlot_eq_iff_of_isNameChar hfirst hsecond
  · intro hplain hne hne'
    have hspelled {c : Char} (hc : c.isAlphanum) : isNameChar c := by simp [isNameChar, hc]
    have hunderscore {name : String} (hname : ∀ c ∈ name.toList, c.isAlphanum) : '_' ∉ name.toList :=
      fun hmem => absurd (hname '_' hmem) (by decide)
    obtain ⟨hfirst, hsecond⟩ := List.forall_mem_append.mp hplain
    rw [fieldSlot_eq_iff_of_isNameChar (fun name hname c hc => hspelled (hfirst name hname c hc))
      fun name hname c hc => hspelled (hsecond name hname c hc)]
    exact joinedNames_inj (fun name hname => hunderscore (hfirst name hname))
      (fun name hname => hunderscore (hsecond name hname)) hne hne'

/-- A struct with a struct that it embeds, and with another field. -/
def outerType : GoType :=
  .named "main.Outer" (.struct
    [{ name := "A", type := .named "main.A" (.struct [{ name := "B", type := .basic .int }]),
        embedded := true },
      { name := "A_B", type := .basic .int }])

/-- `&v.B`, which is `&v.A.B`, and `&v.A_B` -/
def addressesOfFields : Build (Expr × Expr) := do
  let v ← Build.var "v" outerType
  let p ← addressOfPlace (← Build.method v (.var "B" (.basic .int)) [0, 0] .fieldVal)
  return (p, ← addressOfPlace (← Build.field v 1))

/-- The facts about `addressesOfFields`. -/
def fieldsEnv : Env :=
  { facts := (addressesOfFields.run {}).2.facts }

/-- `v`, as `addressesOfFields` makes it. -/
def outerVariable : Expr :=
  .ident ⟨0, TreeBuilder.spanOf 0⟩ "v"

/-- The selector of a field of `v`, by the numbers of its nodes. -/
def outerField (name node : NodeId) (text : String) : Expr :=
  .selector ⟨node, TreeBuilder.spanOf node⟩ outerVariable (.ident ⟨name, TreeBuilder.spanOf name⟩ text)

theorem lower_outerVariable : (lower outerVariable none).runIn fieldsEnv {} = (.ok (.atom "v"), {}) :=
  rfl

/-- The way to `v.B` leads through the embedded struct. -/
theorem takesAddress_embedded : fieldsEnv.TakesAddress {} ⟨3, TreeBuilder.spanOf 3⟩ (outerField 1 2 "B") :=
  ⟨⟨_, rfl, rfl⟩, rfl, ⟨_, rfl, rfl⟩⟩

theorem selects_embedded : fieldsEnv.Selects {} (outerField 1 2 "B").unparen outerVariable
    ⟨["A", "B"], .basic .int, none⟩ :=
  .field rfl rfl rfl

/-- The address of the field of an embedded struct, and what its slot has to do with that of a field with
another name. -/
theorem Lower.addresses_of_fields_embedded :
    ∃ g t₁ t', (lower (addressesOfFields.run {}).1.1 none).runIn fieldsEnv {} = (.ok g, t') ∧
      Repeats outerVariable (.atom "v") t₁ false (fun b =>
        cachedAccessor (b ++ "." ++ fieldSlot ["A", "B"]) (b ++ accessChain ["A", "B"])) g t' ∧
      fieldSlot ["A", "B"] ≠ fieldSlot ["C"] := by
  obtain ⟨⟨g, t₁, t', hrun, -, hrepeats⟩, hslots⟩ :=
    Lower.addresses_of_fields takesAddress_embedded selects_embedded (by decide) rfl lower_outerVariable
  refine ⟨g, t₁, t', hrun, hrepeats, ?_⟩
  rw [Ne, (hslots ["C"]).2.2 (by decide) (by decide) (by decide)]
  decide

/-- Two fields of one struct share a slot: an underscore in a name looks like one between names. -/
theorem fieldSlot_shared :
    ∃ t t', (lower (addressesOfFields.run {}).1.1 none).runIn fieldsEnv {} =
        (.ok (.atom (cachedAccessor ("v" ++ "." ++ "__ptr_A_B") ("v" ++ ".A.B"))), t) ∧
      (lower (addressesOfFields.run {}).1.2 none).runIn fieldsEnv {} =
        (.ok (.atom (cachedAccessor ("v" ++ "." ++ "__ptr_A_B") ("v" ++ ".A_B"))), t') := by
  have hother : fieldsEnv.TakesAddress {} ⟨6, TreeBuilder.spanOf 6⟩ (outerField 4 5 "A_B") :=
    ⟨⟨_, rfl, rfl⟩, rfl, ⟨_, rfl, rfl⟩⟩
  have hselects : fieldsEnv.Selects {} (outerField 4 5 "A_B").unparen outerVariable
      ⟨["A_B"], .basic .int, none⟩ := .field rfl rfl rfl
  obtain ⟨_, _, t, hrun, -, hrepeats⟩ := lower_address_field takesAddress_embedded selects_embedded
    (by decide) rfl lower_outerVariable
  obtain ⟨_, _, t', hrun', -, hrepeats'⟩ := lower_address_field hother hselects (by decide) rfl
    lower_outerVariable
  obtain ⟨rfl, -⟩ := hrepeats.of_isIdent rfl
  obtain ⟨rfl, -⟩ := hrepeats'.of_isIdent rfl
  exact ⟨t, t', hrun, hrun'⟩

end GoLua
