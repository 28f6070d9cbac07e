import GoLua.Proofs.Brackets.Inserted
import GoLua.Proofs.Template.Repeating

/-!
# Addresses of places

An address that is taken of a variable or of a field becomes an accessor, which is kept where it can be
found again. This module says what a run makes of such an address: which name or slot it is kept in, and
which place the accessor reads and writes.

Both are found by keys, in which all that cannot be part of a name of Lua is replaced by an underscore
(`accessorKey_eq_iff`).

A variable is found by what its name is bound to (`Env.Names`), and its address depends on nothing else
(`runIn_address_variable`). A field is found by a selection whose way leads to it (`Env.Selects`). The
template of its address refers to the base more than once, so a base that is no name is bound to a local
first (`runIn_address_field`).
-/

namespace GoLua

open Lower Template Lua

/-! ### Keys -/

/-- The characters that an underscore stands for in a key. -/
def isBlurred (c : Char) : Bool :=
  c == '_' || !isNameChar c

/-- Two texts that differ at most where both have something that is blurred in a key. -/
def SameKey (a b : String) : Prop :=
  List.Forall₂ (fun c d => c = d ∨ isBlurred c ∧ isBlurred d) a.toList b.toList

section

variable {a b : String}

/-- The character of a key. -/
theorem keyChar_eq_iff {c d : Char} :
    ((if isNameChar c then c else '_') = if isNameChar d then d else '_') ↔
      c = d ∨ isBlurred c ∧ isBlurred d := by
  -- An underscore is what the others become, and a character of names itself.
  have hunderscore : isNameChar '_' = true := rfl
  unfold isBlurred
  by_cases hc : isNameChar c <;> by_cases hd : isNameChar d
  · simp only [hc, hd, if_true]
    grind
  · simp only [hc, hd, if_true]
    grind
  · simp only [hc, hd, if_true]
    grind
  · simp [hc, hd]

/-- **Keys** are the same just for texts that differ in blurred characters only. -/
theorem accessorKey_eq_iff : accessorKey a = accessorKey b ↔ SameKey a b := by
  unfold accessorKey SameKey
  rw [String.ofList_inj]
  generalize a.toList = cs
  generalize b.toList = ds
  induction cs generalizing ds with
  | nil => cases ds <;> simp
  | cons c cs ih =>
    cases ds with
    | nil => simp
    | cons d ds =>
      rw [List.map_cons, List.map_cons, List.cons.injEq, List.forall₂_cons, ih, keyChar_eq_iff]

/-- The key of a name that Lua can spell is the name. -/
theorem accessorKey_of_forall (h : ∀ c ∈ a.toList, isNameChar c) : accessorKey a = a := by
  have hmap : a.toList.map (fun c => if isNameChar c then c else '_') = a.toList := by
    refine (List.map_congr_left fun c hc => ?_).trans (List.map_id _)
    rw [if_pos (h c hc), id_eq]
  rw [accessorKey, hmap, String.ofList_toList]

end

/-! ### Places -/

/-- **Names of entities**: identifiers and qualified names, with the identifier that is looked at and what
it is bound to. -/
inductive Env.Names (env : Env) (s : FunctionState) : Expr → String → Object → Prop where
  | ident {ν : Node} {name : String} {obj : Object}
      (binding : (env.binding s ν.id).object? = some obj) : Env.Names env s (.ident ν name) name obj
  | qualified {ν : Node} {base sel : Expr} {obj : Object} (resolved : env.selection? s ν.id = none)
      (binding : (env.binding s sel.id).object? = some obj) :
      Env.Names env s (.selector ν base sel) (sel.identName?.getD "") obj

/-- **Selections of fields**: selectors of which the way from the base to the field is known. -/
inductive Env.Selects (env : Env) (s : FunctionState) : Expr → Expr → FieldPath → Prop where
  | field {ν : Node} {base sel : Expr} {selection : Selection} {path : FieldPath}
      (found : env.selection? s ν.id = some selection) (isField : selection.kind = .fieldVal)
      (resolved : resolvePath env.config selection.recv selection.index = .ok path) :
      Env.Selects env s (.selector ν base sel) base path

/-- **An address of a place**: of something that is no aggregate, so that it needs an accessor, and not of
the object behind a host object. -/
structure Env.TakesAddress (env : Env) (s : FunctionState) (ν : Node) (operand : Expr) : Prop where
  isPointer : ∃ type, env.type? s ν.id = some type ∧ env.config.isHostObject type = false
  isNoConstant : env.constant? s ν.id = none
  isNoAggregate : ∃ type, env.type? s operand.id = some type ∧ type.isAggregate = false

/-- The names on the way to a field, as one text. -/
def joinedNames (names : List String) : String :=
  "_".intercalate names

/-- The slot of a struct that the accessor of a field is kept in, by the names on the way to the field. -/
def fieldSlot (names : List String) : String :=
  "__ptr_" ++ accessorKey (joinedNames names)

/-- The accessor of a field, kept in the base. -/
def fieldAccessorText (names : List String) (base : String) : String :=
  cachedAccessor (base ++ "." ++ fieldSlot names) (base ++ accessChain names)

section

variable {env : Env} {s s₁ : FunctionState} {ν : Node} {operand base : Expr} {name : String}
  {obj : Object} {path : FieldPath} {f : Fragment}

/-- What has been recorded as lowered does not matter to what is known. -/
theorem Env.Names.withLowered {place : Expr} (h : env.Names s place name obj) (lowered : List NodeId) :
    env.Names { s with lowered } place name obj := by
  cases h with
  | ident binding => exact .ident binding
  | qualified resolved binding => exact .qualified resolved binding

/-- Brackets around the place are looked through. -/
theorem Env.TakesAddress.runIn_unary (h : env.TakesAddress s ν operand) :
    ∃ type, ∀ (self : Lowering) (desired : Option GoType),
      (expression self (.unary ν .addrOf operand) desired).runIn env s =
        (placeAddress self (.unary ν .addrOf operand) operand.unparen type).runIn env
          { s with lowered := ν.id :: s.lowered } := by
  obtain ⟨type, htype, hhost⟩ := h.isPointer
  obtain ⟨target, htarget, haggregate⟩ := h.isNoAggregate
  refine ⟨type, fun self desired => ?_⟩
  have htype' : env.type? { s with lowered := ν.id :: s.lowered } ν.id = some type := htype
  have htarget' : env.type? { s with lowered := ν.id :: s.lowered } operand.id = some target := htarget
  rw [runIn_expression_form htype h.isNoConstant]
  change (addressOf self (.unary ν .addrOf operand) operand).runIn env
    { s with lowered := ν.id :: s.lowered } = _
  rw [addressOf, LowerM.runIn_bind_ok (runIn_typeOf_of_type? htype'),
    LowerM.runIn_bind_ok (runIn_config ..), hhost, if_neg (by simp),
    LowerM.runIn_bind_ok (runIn_typeOf_of_type? htarget'), haggregate, if_neg (by simp)]

/-! ### Variables -/

/-- What the address of a variable is. -/
theorem runIn_address_variable (h : env.TakesAddress s ν operand)
    (hnames : env.Names s operand.unparen name obj) (self : Lowering) (desired : Option GoType) :
    (expression self (.unary ν .addrOf operand) desired).runIn env s =
      (variableAccessor obj).runIn env { s with lowered := ν.id :: s.lowered } := by
  obtain ⟨type, hrun⟩ := h.runIn_unary
  rw [hrun]
  generalize operand.unparen = place at hnames
  cases hnames.withLowered (ν.id :: s.lowered) with
  | ident binding => exact LowerM.runIn_bind_ok (runIn_objectOf_of_binding binding) _
  | @qualified μ b sel _ resolved binding =>
    have hresolved : env.selection? { s with lowered := ν.id :: s.lowered } (Expr.selector μ b sel).id =
        none := resolved
    rw [placeAddress, LowerM.runIn_bind_ok (runIn_selectionOf env _ _), hresolved]
    exact LowerM.runIn_bind_ok (runIn_objectOf_of_binding binding) _

/-- The accessor of a variable that is in no box is kept under a name that is found by its key. -/
theorem runIn_variableAccessor_local (h : obj.escaping = false) :
    (variableAccessor obj).runIn env s =
      (.ok (.atom (cachedAccessor (s.accessorBox (accessorKey (objectName env.config obj))).1
        (objectName env.config obj))), (s.accessorBox (accessorKey (objectName env.config obj))).2) := by
  rw [variableAccessor, if_neg (by simp [h]), LowerM.runIn_bind_ok (runIn_config ..),
    LowerM.runIn_bind_ok (runIn_accessorBox ..)]
  rfl

/-- The accessor of an escaping variable is kept in its box. -/
theorem runIn_variableAccessor_escaping (h : obj.escaping) :
    (variableAccessor obj).runIn env s =
      (.ok (.atom (cachedAccessor (boxName env.config obj ++ ".__ptr")
        (boxName env.config obj ++ "[0]"))), s) := by
  rw [variableAccessor, if_pos h, LowerM.runIn_bind_ok (runIn_config ..)]
  rfl

/-! ### Fields -/

/-- The accessor of a field repeats its base five times. -/
theorem fieldAccessorText_eq (names : List String) (base : String) :
    fieldAccessorText names base =
      repeating "(" ["." ++ fieldSlot names ++ " or (function() ",
        "." ++ fieldSlot names ++ " = " ++ Support.newAccessor ++ "(function() return ",
        accessChain names ++ " end, function(_v) ", accessChain names ++ " = _v end); return ",
        "." ++ fieldSlot names ++ " end)())"] base := by
  simp [fieldAccessorText, cachedAccessor, accessorOf, repeating, String.append_assoc]

/-- The accessor of a field, by the text or the name of its base. -/
theorem runIn_fieldAccessor {m : Nat} (hnames : ∀ name ∈ path.names, Inert name)
    (hunknown : env.constant? s base.id = none)
    (hbase : (within m base none).runIn env s = (.ok f, s₁)) :
    ∃ g s', (fieldAccessor (within m) base path).runIn env s = (.ok g, s') ∧
      Repeats base f s₁ false (fieldAccessorText path.names) g s' := by
  -- The pattern is the accessor of a placeholder.
  have hpattern : fieldAccessor (within m) base path =
      render (within m) (fieldAccessorText path.names "%1e") [base] := by
    have hcache : "%1e.__ptr_" ++ accessorKey ("_".intercalate path.names) =
        "%1e" ++ "." ++ fieldSlot path.names := by
      rw [fieldSlot, ← String.append_assoc]
      rfl
    rw [fieldAccessor, hcache]
    rfl
  have hslot : Inert (fieldSlot path.names) := inert_append (by decide) (inert_accessorKey _)
  have hchain : Inert (accessChain path.names) := inert_accessChain hnames
  have hdot : Inert ("." ++ fieldSlot path.names) := inert_append (by decide) hslot
  have hbody : fieldAccessorText path.names = repeating _ _ :=
    funext fun text => fieldAccessorText_eq path.names text
  rw [hpattern, hbody]
  refine runIn_render_repeating (by decide) ?_ (by simp) hunknown hbase
  simp only [List.forall_mem_cons]
  exact ⟨inert_append hdot (by decide),
    inert_append (inert_append (inert_append hdot (by decide)) (by decide)) (by decide),
    inert_append hchain (by decide), inert_append hchain (by decide),
    inert_append hdot (by decide), List.forall_mem_nil _⟩

/-- What the address of a field is, where its base is lowered. -/
theorem runIn_address_field {m : Nat} (h : env.TakesAddress s ν operand)
    (hselects : env.Selects s operand.unparen base path) (hnames : ∀ name ∈ path.names, Inert name)
    (hunknown : env.constant? s base.id = none)
    (hbase : (within m base none).runIn env { s with lowered := ν.id :: s.lowered } = (.ok f, s₁))
    (desired : Option GoType) :
    ∃ g s', (within (m + 1) (.unary ν .addrOf operand) desired).runIn env s = (.ok g, s') ∧
      Repeats base f s₁ false (fieldAccessorText path.names) g s' := by
  obtain ⟨g, s', hrun, hrepeats⟩ :=
    runIn_fieldAccessor (s := { s with lowered := ν.id :: s.lowered }) hnames hunknown hbase
  obtain ⟨type, hunary⟩ := h.runIn_unary
  refine ⟨g, s', ?_, hrepeats⟩
  change (expression (within m) (.unary ν .addrOf operand) desired).runIn env s = _
  rw [hunary]
  -- The operand is a field behind its brackets, so its address is taken along the path.
  generalize operand.unparen = place at hselects
  cases hselects with
  | @field μ _ sel selection _ found isField resolved =>
    have hfound : env.selection? { s with lowered := ν.id :: s.lowered }
        (Expr.selector μ base sel).id = some selection := found
    rw [placeAddress, LowerM.runIn_bind_ok (runIn_selectionOf env _ _), hfound]
    dsimp only
    rw [if_pos isField, LowerM.runIn_bind_ok (runIn_pathFrom_of_resolved resolved)]
    exact hrun

/-- **Addresses of fields.** Where the base is lowered, so is the address of a field. It is the accessor of
the field, with the base as it is lowered by itself. -/
theorem lower_address_field {t : FunctionState} (h : env.TakesAddress s ν operand)
    (hselects : env.Selects s operand.unparen base path) (hnames : ∀ name ∈ path.names, Inert name)
    (hunknown : env.constant? s base.id = none)
    (hbase : (lower base none).runIn env s = (.ok f, t)) :
    ∃ g t₁ t', (lower (.unary ν .addrOf operand) none).runIn env s = (.ok g, t') ∧
      Matches Eq t t₁ ∧ Repeats base f t₁ false (fieldAccessorText path.names) g t' := by
  have hsize : base.size ≤ operand.size := by
    have hplace := operand.size_unparen_le
    generalize operand.unparen = place at hplace hselects
    cases hselects with
    | field => simp only [Expr.size] at hplace; omega
  -- The base is lowered with more nesting left than if it is lowered by itself, and after the address.
  obtain ⟨t₁, hagain, hmatches⟩ := within_again (l := 4 * (operand.size + 1) + 7)
    (Nat.le_add_right _ _) (by omega) hbase (ν.id :: s.lowered)
  obtain ⟨g, t', hrun, hrepeats⟩ := runIn_address_field h hselects hnames hunknown hagain none
  exact ⟨g, t₁, t', hrun, hmatches, hrepeats⟩

end

/-! ### Trees with addresses -/

/-- `&x` -/
def addressOfPlace (place : Expr) : Build Expr := do
  return .unary (← Build.node (.pointer (← Build.typeOf place))) .addrOf place

end GoLua
