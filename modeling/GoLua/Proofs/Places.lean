import GoLua.Proofs.FieldSlots
import GoLua.Proofs.Lua.StringToken

/-!
# Places and their addresses

Whoever reads a place and whoever takes its address get their texts from different rules, and both have to
mean the same place: the getter of the accessor reads what the direct text reads, and the setter writes it.

For variables the two rules agree. Both write the emitted name of the variable, and for an escaping variable
both write the element of its box (`boxName_index`). Only what the host bridge calls by a name of its own is
read directly by that name.

For fields they agree on the way to the field (`readPlace`), unless the field stands for a property of a host
object. Then it is the property that is read directly, through the bridge, while the accessor reads and
writes the field of the struct, which nobody keeps up to date (`readPlace_eq_iff`, `property_notAddressed`).

`Lower.places_of_addresses` puts the texts side by side.
-/

namespace GoLua

open Lower Template Lua

/-! ### Variables -/

section

variable {config : Config} {env : Env} {s t : FunctionState} {e : Expr} {obj : Object}
  {name : String}

/-- The index of a box is dropped where it was put. -/
theorem dropBoxIndex_append (text : String) : dropBoxIndex (text ++ "[0]") = text := by
  have hreverse : (text ++ "[0]").toList.reverse = ']' :: '0' :: '[' :: text.toList.reverse := by
    rw [String.toList_append, List.reverse_append]
    rfl
  rw [dropBoxIndex, hreverse]
  simp

/-- The element of the box of a variable is what its name stands for. -/
theorem boxName_index (hkind : obj.kind = .var) (hescaping : obj.escaping) :
    boxName config obj ++ "[0]" = objectName config obj := by
  have hname : objectName config obj = qualifiedName config obj ++ "[0]" := by
    rw [objectName, if_pos (by simp [hkind, hescaping])]
  rw [boxName, hname, dropBoxIndex_append]

/-- An expression whose type is known, and that is no constant. -/
structure Env.IsPlace (env : Env) (s : FunctionState) (e : Expr) : Prop where
  type : ∃ type, env.type? s e.id = some type
  isNoConstant : env.constant? s e.id = none

/-- A variable is read by its emitted name, or by what the host bridge calls it. -/
theorem runIn_expression_name (hplace : env.IsPlace s e) (hnames : env.Names s e name obj)
    (hkind : obj.kind = .var) (hname : name ≠ "_") (self : Lowering) (desired : Option GoType) :
    (expression self e desired).runIn env s =
      (.ok (.atom ((hostEntity? env.config obj).getD (objectName env.config obj))),
        if e.unparen.isIdent then s else { s with lowered := e.id :: s.lowered }) := by
  obtain ⟨type, htype⟩ := hplace.type
  rw [runIn_expression_form htype hplace.isNoConstant]
  cases hnames with
  | ident binding => exact runIn_identifier_var binding hkind hname
  | @qualified μ base sel _ resolved binding =>
    change (selector self (.selector μ base sel) base sel).runIn env
      { s with lowered := μ.id :: s.lowered } = _
    have hresolved : env.selection? { s with lowered := μ.id :: s.lowered }
        (Expr.selector μ base sel).id = none := resolved
    rw [selector, LowerM.runIn_bind_ok (runIn_selectionOf ..), hresolved]
    exact runIn_identifier_var binding hkind hname

/-- The accessor of a variable is for the place that its name stands for. -/
theorem runIn_address_name {ν : Node} {operand : Expr} (h : env.TakesAddress s ν operand)
    (hnames : env.Names s operand.unparen name obj) (hkind : obj.kind = .var) (self : Lowering)
    (desired : Option GoType) :
    ∃ cache t, (expression self (.unary ν .addrOf operand) desired).runIn env s =
      (.ok (.atom (cachedAccessor cache (objectName env.config obj))), t) := by
  have hrun := runIn_address_variable h hnames self desired
  cases hescaping : obj.escaping with
  | false => exact ⟨_, _, hrun.trans (runIn_variableAccessor_local hescaping)⟩
  | true =>
    have hbox := hrun.trans (runIn_variableAccessor_escaping hescaping)
    rw [boxName_index hkind hescaping] at hbox
    exact ⟨_, _, hbox⟩

end

/-! ### Fields -/

/-- What is read of a base for a field: the field itself, or the property that it stands for, which the
object in the first field of its struct has. -/
def FieldPath.readAccess (path : FieldPath) : String :=
  match path.host with
  | none => accessChain path.names
  | some (holder, tag) => accessChain (path.names.dropLast ++ [holder]) ++ "[" ++ quote tag ++ "]"

/-- The text of a field, with what is read of the base put through the bridge if it is a property. -/
def FieldPath.read (path : FieldPath) (config : Config) (base : String) : Fragment :=
  if path.host.isSome then internalized config (.atom (base ++ path.readAccess)) path.type
  else .atom (base ++ path.readAccess)

/-- Neither the names on the way nor those of the property can be taken for placeholders. -/
structure FieldPath.IsInert (path : FieldPath) : Prop where
  names : ∀ name ∈ path.names, Inert name
  host : ∀ holder tag, path.host = some (holder, tag) → Inert holder ∧ Inert tag

section

variable {env : Env} {s t : FunctionState} {e base : Expr} {path : FieldPath} {f : Fragment}

/-- The text that reads along a path is inert when the path is. -/
theorem FieldPath.IsInert.readAccess (h : path.IsInert) : Inert path.readAccess := by
  unfold FieldPath.readAccess
  split
  · exact inert_accessChain h.names
  · next holder tag hhost =>
    obtain ⟨hholder, htag⟩ := h.host holder tag hhost
    refine inert_bracketed (inert_append (inert_accessChain fun name hname => ?_) (by decide))
      (inert_quote htag) (by decide)
    rcases List.mem_append.mp hname with hname | hname
    · exact h.names name (List.dropLast_subset _ hname)
    · exact List.mem_singleton.mp hname ▸ hholder

/-- A field is read of what is written of its base. -/
theorem runIn_field_written {self : Lowering} {selection : Selection} {span : Span} (h : path.IsInert)
    (hpath : resolvePath env.config selection.recv selection.index = .ok path)
    (hbase : (self base none).runIn env s = (.ok f, t)) :
    (Lower.field self base selection span).runIn env s =
      (.ok (path.read env.config (env.written s base f)), t) := by
  cases hhost : path.host with
  | none =>
    rw [runIn_field_plain h.names hpath hhost hbase]
    simp [FieldPath.read, FieldPath.readAccess, hhost]
  | some property =>
    obtain ⟨holder, tag⟩ := property
    have hread := h.readAccess
    simp only [FieldPath.readAccess, hhost] at hread
    rw [runIn_field_host hread hpath hhost hbase]
    simp [FieldPath.read, FieldPath.readAccess, hhost]

/-- A field is read of its base. -/
theorem runIn_field_read {self : Lowering} {selection : Selection} {span : Span} (h : path.IsInert)
    (hpath : resolvePath env.config selection.recv selection.index = .ok path)
    (hunknown : env.constant? s base.id = none)
    (hbase : (self base none).runIn env s = (.ok f, t)) :
    (Lower.field self base selection span).runIn env s = (.ok (path.read env.config f.operand), t) := by
  rw [← Env.written_of_unknown hunknown f]
  exact runIn_field_written h hpath hbase

/-- Where the base is lowered, so is the field. -/
theorem lower_field (hplace : env.IsPlace s e) (hselects : env.Selects s e base path) (h : path.IsInert)
    (hunknown : env.constant? s base.id = none) (hbase : (lower base none).runIn env s = (.ok f, t)) :
    ∃ t', (lower e none).runIn env s = (.ok (path.read env.config f.operand), t') ∧ Matches Eq t t' := by
  cases hselects with
  | @field μ _ sel selection _ found isField resolved =>
    obtain ⟨type, htype⟩ := hplace.type
    have hfound : env.selection? { s with lowered := μ.id :: s.lowered }
        (Expr.selector μ base sel).id = some selection := found
    obtain ⟨t', hagain, hmatches⟩ := within_again (l := 4 * (base.size + sel.size + 1) + 7)
      (Nat.le_add_right _ _) (by omega) hbase (μ.id :: s.lowered)
    refine ⟨t', (runIn_expression_form htype hplace.isNoConstant _ none).trans ?_, hmatches⟩
    change (selector (within _) (.selector μ base sel) base sel).runIn env
      { s with lowered := μ.id :: s.lowered } = _
    rw [selector, LowerM.runIn_bind_ok (runIn_selectionOf ..), hfound]
    dsimp only
    rw [isField]
    exact runIn_field_read (s := { s with lowered := μ.id :: s.lowered }) h resolved hunknown hagain

/-- One step down a path ends in one index at most, and a property of what it leads to in another. -/
theorem accessStep_ne_property (name holder tag : String) :
    accessStep name ≠ accessStep holder ++ "[" ++ quote tag ++ "]" := by
  intro heq
  unfold accessStep at heq
  split at heq
  · next hname =>
    -- A name has no bracket.
    have hbracket : '[' ∈ ("." ++ name).toList := by
      rw [heq]
      simp
    obtain ⟨c, cs, hcs, -, hall, -⟩ := toList_of_isName hname
    rw [String.toList_append, hcs] at hbracket
    have hmem : '[' ∈ c :: cs := (List.mem_cons.mp hbracket).resolve_left (by decide)
    exact absurd (List.all_eq_true.mp hall _ hmem) (by decide)
  · split at heq
    · have hhead := congrArg (fun text : String => text.toList.head?) heq
      simp at hhead
    · -- The quoted names are the same, so nothing is left for the property.
      simp only [String.append_assoc, String.append_right_inj] at heq
      obtain ⟨-, hrest⟩ := quote_append_inj heq
      have hlength := congrArg String.length hrest
      simp at hlength

/-- A chain of steps behind another is one chain. -/
theorem accessChain_append (names names' : List String) :
    accessChain (names ++ names') = accessChain names ++ accessChain names' := by
  rw [accessChain, List.map_append, String.join_append]
  rfl

/-- **Properties are other places.** What is read is the field just if it stands for no property. -/
theorem readAccess_eq_iff : path.readAccess = accessChain path.names ↔ path.host = none := by
  -- Without a property both are the chain of names; with one, the last step is a dot on one side
  -- and brackets on the other.
  unfold FieldPath.readAccess
  cases path.host with
  | none => simp
  | some property =>
    obtain ⟨holder, tag⟩ := property
    have hstep (name : String) : accessChain [name] = accessStep name := by
      simp [accessChain, String.join]
    simp only [reduceCtorEq, iff_false]
    rw [accessChain_append, hstep]
    rcases List.eq_nil_or_concat path.names with hnil | ⟨before, last, hnames⟩
    · -- Without a step there is no text, but the property has one.
      intro heq
      have hlength := congrArg String.length heq
      simp [hnil, accessChain, String.join] at hlength
    · rw [hnames, List.concat_eq_append, List.dropLast_concat, accessChain_append, hstep]
      have hother := (accessStep_ne_property last holder tag).symm
      simpa only [String.append_assoc, String.append_right_inj] using hother

end

/-! ### Side by side -/

/-- **Places and their addresses.** A variable is read by its emitted name, or by what the host bridge calls
it, and its address is an accessor for the place that the emitted name stands for. A field is read of its
base, and its address is an accessor for the way to it from the same base, which has been bound to a local
if it is no name. The two are the same place just if the field stands for no property of a host object. -/
theorem Lower.places_of_addresses {env : Env} {s : FunctionState} {ν : Node} {operand : Expr}
    (h : env.TakesAddress s ν operand) (hplace : env.IsPlace s operand.unparen) :
    (∀ (name : String) (obj : Object), env.Names s operand.unparen name obj → obj.kind = .var →
      name ≠ "_" →
        ∃ cache t t', (lower operand.unparen none).runIn env s =
            (.ok (.atom ((hostEntity? env.config obj).getD (objectName env.config obj))), t) ∧
          (lower (.unary ν .addrOf operand) none).runIn env s =
            (.ok (.atom (cachedAccessor cache (objectName env.config obj))), t')) ∧
    ∀ (base : Expr) (path : FieldPath) (f : Fragment) (t : FunctionState),
      env.Selects s operand.unparen base path → path.IsInert → env.constant? s base.id = none →
        (lower base none).runIn env s = (.ok f, t) →
          ∃ t₁ g t₂ t', (lower operand.unparen none).runIn env s =
              (.ok (path.read env.config f.operand), t₁) ∧
            (lower (.unary ν .addrOf operand) none).runIn env s = (.ok g, t') ∧
            Matches Eq t t₁ ∧ Matches Eq t t₂ ∧
            Repeats base f t₂ false (fun b =>
              cachedAccessor (b ++ "." ++ fieldSlot path.names) (b ++ accessChain path.names)) g t' ∧
            (path.readAccess = accessChain path.names ↔ path.host = none) := by
  -- Names and fields are apart: the address of a name is its cached accessor, that of a field an
  -- accessor of its path.
  constructor
  · intro name obj hnames hkind hname
    obtain ⟨cache, t', haddress⟩ :=
      runIn_address_name h hnames hkind (within (4 * (operand.size + 1) + 7)) none
    exact ⟨cache, _, t', runIn_expression_name hplace hnames hkind hname _ none, haddress⟩
  · intro base path f t hselects hinert hunknown hbase
    obtain ⟨t₁, hread, hmatches⟩ := lower_field hplace hselects hinert hunknown hbase
    obtain ⟨g, t₂, t', haddress, hmatches', hrepeats⟩ :=
      lower_address_field h hselects hinert.names hunknown hbase
    exact ⟨t₁, g, t₂, t', hread, haddress, hmatches, hmatches', hrepeats, readAccess_eq_iff⟩

/-- A variable that a function captures by reference. -/
def capturedVariable : Object :=
  { Object.var "n" (.basic .int) with escaping := true }

/-- `n` and `&n` -/
def addressOfCaptured : Build (Expr × Expr) := do
  let n ← Build.ident capturedVariable
  return (n, ← addressOfPlace n)

/-- The facts about `addressOfCaptured`. -/
def capturedEnv : Env :=
  { facts := (addressOfCaptured.run {}).2.facts }

/-- A captured variable is the element of its box for both, and the field of an embedded struct is reached by
the same way. -/
theorem Lower.places_of_addresses_captured :
    (∃ cache t t', (lower (addressOfCaptured.run {}).1.1 none).runIn capturedEnv {} =
        (.ok (.atom "n[0]"), t) ∧
      (lower (addressOfCaptured.run {}).1.2 none).runIn capturedEnv {} =
        (.ok (.atom (cachedAccessor cache "n[0]")), t')) ∧
    ∃ t g t₂ t', (lower (outerField 1 2 "B") none).runIn fieldsEnv {} = (.ok (.atom "v.A.B"), t) ∧
      (lower (addressesOfFields.run {}).1.1 none).runIn fieldsEnv {} = (.ok g, t') ∧
      Repeats outerVariable (.atom "v") t₂ false (fun b =>
        cachedAccessor (b ++ "." ++ fieldSlot ["A", "B"]) (b ++ accessChain ["A", "B"])) g t' := by
  constructor
  · have haddress : capturedEnv.TakesAddress {} ⟨1, TreeBuilder.spanOf 1⟩
        (addressOfCaptured.run {}).1.1 := ⟨⟨_, rfl, rfl⟩, rfl, ⟨_, rfl, rfl⟩⟩
    have hname : objectName capturedEnv.config capturedVariable = "n[0]" := by decide
    have hentity : hostEntity? capturedEnv.config capturedVariable = none := rfl
    obtain ⟨hvariables, -⟩ := Lower.places_of_addresses haddress ⟨⟨_, rfl⟩, rfl⟩
    obtain ⟨cache, t, t', hread, hrun⟩ := hvariables "n" capturedVariable (.ident rfl) rfl (by decide)
    rw [hentity, hname] at hread
    rw [hname] at hrun
    exact ⟨cache, t, t', hread, hrun⟩
  · have hinert : (FieldPath.mk ["A", "B"] (.basic .int) none).IsInert :=
      ⟨by decide, fun _ _ h => by cases h⟩
    obtain ⟨-, hfields⟩ := Lower.places_of_addresses takesAddress_embedded ⟨⟨_, rfl⟩, rfl⟩
    obtain ⟨t, g, t₂, t', hread, hrun, -, -, hrepeats, -⟩ :=
      hfields _ _ _ _ selects_embedded hinert rfl lower_outerVariable
    exact ⟨t, g, t₂, t', hread, hrun, hrepeats⟩

/-- `payment.share` and `&payment.share` -/
def addressOfShare : Build (Expr × Expr) := do
  let share ← propertyOf "share"
  return (share, ← addressOfPlace share)

/-- What is known of them, with a host whose objects are reached. -/
def shareEnv : Env :=
  { facts := (addressOfShare.run {}).2.facts, config := { host := some {} } }

/-- The share of a payment is read from the host object, and its address is that of a field that nothing
else reads. -/
theorem property_notAddressed :
    ∃ t t', (lower (addressOfShare.run {}).1.1 none).runIn shareEnv {} =
        (.ok (.atom "__internalize(payment.object[\"share\"], \"string\")"), t) ∧
      (lower (addressOfShare.run {}).1.2 none).runIn shareEnv {} =
        (.ok (.atom (cachedAccessor ("payment" ++ "." ++ "__ptr_share") ("payment" ++ ".share"))), t') := by
  let payment : Expr := .ident ⟨0, TreeBuilder.spanOf 0⟩ "payment"
  have hbase : (lower payment none).runIn shareEnv {} = (.ok (.atom "payment"), {}) := rfl
  have haddress : shareEnv.TakesAddress {} ⟨3, TreeBuilder.spanOf 3⟩ (addressOfShare.run {}).1.1 :=
    ⟨⟨_, rfl, rfl⟩, rfl, ⟨_, rfl, rfl⟩⟩
  have hselects : shareEnv.Selects {} (addressOfShare.run {}).1.1 payment
      ⟨["share"], .basic .string, some ("object", "share")⟩ := .field rfl rfl rfl
  have hinert : (FieldPath.mk ["share"] (.basic .string) (some ("object", "share"))).IsInert :=
    ⟨by decide, fun _ _ h => by cases h; decide⟩
  obtain ⟨t, hread, -⟩ := lower_field ⟨⟨_, rfl⟩, rfl⟩ hselects hinert rfl hbase
  obtain ⟨_, _, t', hrun, -, hrepeats⟩ := lower_address_field haddress hselects hinert.names rfl hbase
  obtain ⟨rfl, -⟩ := hrepeats.of_isIdent rfl
  have htext : FieldPath.read ⟨["share"], .basic .string, some ("object", "share")⟩ shareEnv.config
      (Fragment.atom "payment").operand =
        .atom "__internalize(payment.object[\"share\"], \"string\")" := by decide +kernel
  rw [htext] at hread
  exact ⟨t, t', hread, hrun⟩

end GoLua
