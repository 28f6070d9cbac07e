import GoLua.Proofs.Places

/-!
# Ways along fields

A selector may select a field that embedded fields lead to; Go says that this is the same as writing a
selector for each of them. Lowering looks at the two differently. A single selector is resolved to the way
along all fields at once, and only the last of them may stand for a property of a host object; in a chain
each selector is resolved by itself, and each of them is the last of its way.

**Ways compose** (`resolvePath_append`). A way along `p ++ q` is a way along `p` and a way along `q` from
where the first one leads. The names are put one behind the other, and whether the way ends in a property
is a matter of the second. There is a way just if at each step there is a field to follow
(`exists_resolvePath_iff`).

**So chains are read alike** (`Lower.promoted_as_chain`). By induction on the chain, what has been written
of a chain is what is written of its base with the names of the way behind it, as long as no field before
the last stands for a property: a property is read from the host and internalized, and what would be
behind that is read of the result. All of a chain is looked up before its base is lowered, so the base is
lowered in the same state but for what has been recorded (`within_again`).
-/

namespace GoLua

/-! ### Composing ways -/

section

variable {config : Config} {t u v : GoType} {p q : List Nat} {i : Nat} {path : FieldPath}

/-- The fields at some places lead from one type to another: each of them is a field of the struct that the
type before it is, or points to. -/
inductive GoType.Leads : GoType → List Nat → GoType → Prop where
  | stay {t : GoType} : Leads t [] t
  | step {t u : GoType} {fields : List Field} {i : Nat} {field : Field} {rest : List Nat}
      (isStruct : t.throughPointer.fields? = some fields) (place : fields[i]? = some field)
      (onward : Leads field.type rest u) : Leads t (i :: rest) u

/-- A way along a field and on from it. -/
theorem resolvePath_cons_eq_ok_iff {rest : List Nat} :
    resolvePath config t (i :: rest) = .ok path ↔
      ∃ fields field onward, t.throughPointer.fields? = some fields ∧ fields[i]? = some field ∧
        resolvePath config field.type rest = .ok onward ∧
        path = { names := field.name :: onward.names, type := onward.type,
                 host := if rest.isEmpty then hostProperty? config fields field else onward.host } := by
  rw [resolvePath]
  -- A step resolves if there is a struct, a field at the index, and a path onward; any of the three
  -- missing is an error.
  cases hstruct : t.throughPointer.fields? with
  | none => simp
  | some fields =>
    cases hplace : fields[i]? with
    | none => simp [hplace]
    | some field =>
      cases hrest : resolvePath config field.type rest with
      | error construct => simp [hplace, hrest, bind, Except.bind]
      | ok onward =>
        simp only [hplace, hrest, bind, Except.bind, pure, Except.pure, Except.ok.injEq,
          Option.some.injEq, exists_and_left, exists_eq_left', eq_comm (a := path)]

/-- **Ways compose.** -/
theorem resolvePath_append_eq_ok_iff (hq : q ≠ []) :
    resolvePath config t (p ++ q) = .ok path ↔
      ∃ a b, resolvePath config t p = .ok a ∧ resolvePath config a.type q = .ok b ∧
        path = { names := a.names ++ b.names, type := b.type, host := b.host } := by
  induction p generalizing t path with
  | nil =>
    constructor
    · intro h
      exact ⟨_, path, rfl, h, rfl⟩
    · rintro ⟨a, b, ha, hb, rfl⟩
      cases ha
      exact hb
  | cons i p ih =>
    -- Behind the first field there is still `q`, so this field does not end the way.
    have hnonempty : (p ++ q).isEmpty = false := by simp [hq]
    rw [List.cons_append, resolvePath_cons_eq_ok_iff]
    constructor
    · rintro ⟨fields, field, onward, hstruct, hplace, honward, rfl⟩
      obtain ⟨a, b, ha, hb, rfl⟩ := ih.mp honward
      refine ⟨_, b, resolvePath_cons_eq_ok_iff.mpr ⟨fields, field, a, hstruct, hplace, ha, rfl⟩, hb, ?_⟩
      simp [hnonempty]
    · rintro ⟨a, b, ha, hb, rfl⟩
      obtain ⟨fields, field, onward, hstruct, hplace, honward, rfl⟩ := resolvePath_cons_eq_ok_iff.mp ha
      refine ⟨fields, field, _, hstruct, hplace, ih.mpr ⟨onward, b, honward, hb, rfl⟩, ?_⟩
      simp [hnonempty]

/-- There is a way just if the fields lead somewhere, and it leads there as well. -/
theorem exists_resolvePath_iff :
    (∃ path, resolvePath config t p = .ok path ∧ path.type = u) ↔ t.Leads p u := by
  -- By induction on the path, one field at a time.
  induction p generalizing t with
  | nil =>
    constructor
    · rintro ⟨path, hpath, rfl⟩
      cases hpath
      exact .stay
    · rintro ⟨⟩
      exact ⟨_, rfl, rfl⟩
  | cons i p ih =>
    constructor
    · rintro ⟨path, hpath, rfl⟩
      obtain ⟨fields, field, onward, hstruct, hplace, honward, rfl⟩ :=
        resolvePath_cons_eq_ok_iff.mp hpath
      exact .step hstruct hplace (ih.mp ⟨onward, honward, rfl⟩)
    · rintro ⟨⟩
      next fields field hstruct hplace hleads =>
      obtain ⟨onward, honward, rfl⟩ := ih.mpr hleads
      exact ⟨_, resolvePath_cons_eq_ok_iff.mpr ⟨fields, field, onward, hstruct, hplace, honward, rfl⟩,
        rfl⟩

/-- A way that is not empty has a name. -/
theorem names_resolvePath_ne_nil (h : resolvePath config t p = .ok path) (hp : p ≠ []) :
    path.names ≠ [] := by
  cases p with
  | nil => exact absurd rfl hp
  | cons i rest =>
    obtain ⟨fields, field, onward, -, -, -, rfl⟩ := resolvePath_cons_eq_ok_iff.mp h
    exact List.cons_ne_nil _ _

end

/-! ### Reading fields -/

open Lower Template Lua

/-- What is read along a way is read along its second part of what is read along its first part. -/
theorem FieldPath.read_append {a b : FieldPath} (config : Config) (base : String)
    (hnames : b.names ≠ []) :
    FieldPath.read { names := a.names ++ b.names, type := b.type, host := b.host } config base =
      b.read config (base ++ accessChain a.names) := by
  cases hhost : b.host with
  | none =>
    simp [FieldPath.read, FieldPath.readAccess, hhost, accessChain_append, String.append_assoc]
  | some property =>
    simp [FieldPath.read, FieldPath.readAccess, hhost, accessChain_append, String.append_assoc,
      List.dropLast_append_of_ne_nil hnames]

section

variable {env : Env} {s t : FunctionState} {e base : Expr} {path : FieldPath} {f g : Fragment}
  {self : Lowering}

/-- If a field is read, its base has been lowered. -/
theorem exists_of_runIn_field {selection : Selection} {span : Span} (h : path.IsInert)
    (hpath : resolvePath env.config selection.recv selection.index = .ok path)
    (hrun : (Lower.field self base selection span).runIn env s = (.ok g, t)) :
    ∃ b, (self base none).runIn env s = (.ok b, t) ∧
      g = path.read env.config (env.written s base b) := by
  -- Whatever is behind it, the pattern starts with the base, which therefore has been lowered.
  have hfront {access : String} {r : Fragment} {t' : FunctionState} (hinert : Inert access)
      (hrender : (render self ("%e" ++ access) [base]).runIn env s = (.ok r, t')) :
      ∃ b t₁, (self base none).runIn env s = (.ok b, t₁) := by
    have hparse := parse_around (by decide : Inert "") hinert
    rw [String.empty_append] at hparse
    obtain ⟨b, t₁, -, -, -, hbase, -⟩ :=
      exists_of_runIn_renderAs_front _ hparse (fun named => fixed_foldr_consChar _) hrender
    exact ⟨b, t₁, hbase⟩
  obtain ⟨b, t₁, hbase⟩ : ∃ b t₁, (self base none).runIn env s = (.ok b, t₁) := by
    have hread := h.readAccess
    rw [Lower.field, LowerM.runIn_bind_ok (runIn_pathFrom_of_resolved hpath)] at hrun
    cases hhost : path.host with
    | none =>
      simp only [hhost] at hrun
      exact hfront (inert_accessChain h.names) hrun
    | some property =>
      obtain ⟨holder, tag⟩ := property
      simp only [hhost] at hrun
      simp only [FieldPath.readAccess, hhost] at hread
      obtain ⟨raw, t', hraw, -⟩ := LowerM.runIn_bind_eq_ok hrun
      exact hfront hread hraw
  rw [runIn_field_written h hpath hbase] at hrun
  cases hrun
  exact ⟨b, hbase, rfl⟩

/-- A selector of a field is lowered just if its base is, and to what is read of that. -/
theorem runIn_selects_eq_ok_iff (hplace : env.IsPlace s e) (hselects : env.Selects s e base path)
    (h : path.IsInert) (desired : Option GoType) (lowered : List NodeId) :
    (expression self e desired).runIn env { s with lowered } = (.ok g, t) ↔
      ∃ b, (self base none).runIn env { s with lowered := e.id :: lowered } = (.ok b, t) ∧
        g = path.read env.config (env.written s base b) := by
  cases hselects with
  | @field ν _ sel selection _ found isField resolved =>
    obtain ⟨type, htype⟩ := hplace.type
    -- The selector is lowered by its form, which is that of a field.
    have hfield : (expression self (.selector ν base sel) desired).runIn env { s with lowered } =
        (Lower.field self base selection ν.span).runIn env { s with lowered := ν.id :: lowered } := by
      have hfound : env.selection? { s with lowered := ν.id :: lowered }
          (Expr.selector ν base sel).id = some selection := found
      refine (runIn_expression_form (s := { s with lowered }) htype hplace.isNoConstant self desired).trans
        ?_
      change (selector self (.selector ν base sel) base sel).runIn env
        { s with lowered := ν.id :: lowered } = _
      rw [selector, LowerM.runIn_bind_ok (runIn_selectionOf ..), hfound]
      dsimp only
      rw [isField]
      rfl
    rw [hfield]
    constructor
    · exact exists_of_runIn_field (s := { s with lowered := ν.id :: lowered }) h resolved
    · rintro ⟨b, hbase, rfl⟩
      exact runIn_field_written (s := { s with lowered := ν.id :: lowered }) h resolved hbase

end

/-! ### Chains -/

/-- **Chains of selectors** along fields, from a base of a type: each selects one field of what the chain
before it leads to, and that is no property of a host object. -/
inductive Env.Chains (env : Env) (s : FunctionState) (base : Expr) (recv : GoType) :
    List Nat → Expr → Prop where
  | base : Env.Chains env s base recv [] base
  | field {index : List Nat} {inner sel : Expr} {i : Nat} {ν : Node} {before : FieldPath}
      {selection : Selection} (chain : Env.Chains env s base recv index inner)
      (leads : resolvePath env.config recv index = .ok before) (plain : before.host = none)
      (place : env.IsPlace s (.selector ν inner sel))
      (found : env.selection? s ν.id = some selection) (isField : selection.kind = .fieldVal)
      (holder : selection.recv = before.type) (step : selection.index = [i]) :
      Env.Chains env s base recv (index ++ [i]) (.selector ν inner sel)

section

variable {env : Env} {s : FunctionState} {e e' base : Expr} {recv : GoType} {index : List Nat}
  {path : FieldPath}

/-- A chain grows by a node for each index. -/
theorem Env.Chains.size_le (h : env.Chains s base recv index e) :
    base.size + index.length ≤ e.size := by
  induction h with
  | base => exact Nat.le_refl _
  | field chain _ _ _ _ _ _ _ ih =>
    simp only [List.length_append, List.length_singleton, Expr.size]
    omega

/-- **A chain is lowered just if its base is.** What is written of a chain without a property is what is
written of the base, with the names of the way behind it; and a chain that is more than its base is lowered
to what is read of the base along the way. -/
theorem Env.Chains.runIn_within (h : env.Chains s base recv index e)
    (hpath : resolvePath env.config recv index = .ok path) (hinert : path.IsInert) (l : Nat)
    (desired : Option GoType) (hdesired : index = [] → desired = none) (lowered : List NodeId) :
    ∃ (lowered' : List NodeId) (value : Fragment → Fragment),
      (path.host = none → ∀ b, env.written s e (value b) =
        env.written s base b ++ accessChain path.names) ∧
      (index ≠ [] → ∀ b, value b = path.read env.config (env.written s base b)) ∧
      ∀ g t, (within (l + index.length) e desired).runIn env { s with lowered } = (.ok g, t) ↔
        ∃ b, (within l base none).runIn env { s with lowered := lowered' } = (.ok b, t) ∧
          g = value b := by
  induction h generalizing path desired lowered with
  | base =>
    cases hpath
    obtain rfl := hdesired rfl
    refine ⟨lowered, id, fun _ b => ?_, fun hne => absurd rfl hne, fun g t => ?_⟩
    · simp [accessChain, String.join]
    · simp
  | @field index inner sel i ν before selection chain leads plain place found isField holder step ih =>
    obtain ⟨a, b, ha, hb, rfl⟩ := (resolvePath_append_eq_ok_iff (List.cons_ne_nil i [])).mp hpath
    obtain rfl : before = a := Except.ok.inj (leads.symm.trans ha)
    -- The way along the chain is the way to its last holder and one more field.
    have hnames : b.names ≠ [] := names_resolvePath_ne_nil hb (List.cons_ne_nil i [])
    have hselects : env.Selects s (.selector ν inner sel) inner b :=
      .field found isField (by rw [holder, step]; exact hb)
    have hbefore : before.IsInert :=
      ⟨fun name hname => hinert.names name (List.mem_append_left _ hname), fun _ _ hhost => by
        rw [plain] at hhost
        cases hhost⟩
    have hlast : b.IsInert :=
      ⟨fun name hname => hinert.names name (List.mem_append_right _ hname), hinert.host⟩
    -- What is written of the chain before the last selector is known, and the last one reads of that.
    obtain ⟨lowered', value, hwritten, -, hrun⟩ := ih leads hbefore none (fun _ => rfl) (ν.id :: lowered)
    have hread (x : Fragment) : b.read env.config (env.written s inner (value x)) =
        FieldPath.read { names := before.names ++ b.names, type := b.type, host := b.host } env.config
          (env.written s base x) := by
      rw [hwritten plain x, FieldPath.read_append env.config _ hnames]
    refine ⟨lowered', fun x => b.read env.config (env.written s inner (value x)), fun hhost x => ?_,
      fun _ x => hread x, fun g t => ?_⟩
    · have hwhole : b.read env.config (env.written s inner (value x)) =
          .atom (env.written s base x ++ accessChain (before.names ++ b.names)) := by
        rw [hread x]
        simp only at hhost
        simp [FieldPath.read, FieldPath.readAccess, hhost]
      dsimp only
      rw [hwhole, Env.written_of_unknown place.isNoConstant]
      rfl
    · rw [List.length_append, List.length_singleton, ← Nat.add_assoc]
      refine (runIn_selects_eq_ok_iff place hselects hlast desired lowered).trans ?_
      constructor
      · rintro ⟨c, hc, rfl⟩
        obtain ⟨x, hx, rfl⟩ := (hrun c t).mp hc
        exact ⟨x, hx, rfl⟩
      · rintro ⟨x, hx, rfl⟩
        exact ⟨value x, (hrun _ t).mpr ⟨x, hx, rfl⟩, rfl⟩

/-- **A selector along embedded fields is a chain.** A selector of a field and a chain of selectors along the
same way are lowered to the same text, or neither is lowered. -/
theorem lower_chain_iff (hplace : env.IsPlace s e) (hselects : env.Selects s e base path)
    (hchain : env.Chains s base recv index e')
    (hpath : resolvePath env.config recv index = .ok path) (hindex : index ≠ [])
    (hinert : path.IsInert) (desired : Option GoType) (g : Fragment) :
    (∀ t, (lower e desired).runIn env s = (.ok g, t) →
        ∃ t', (lower e' desired).runIn env s = (.ok g, t') ∧ Matches Eq t t') ∧
      ∀ t', (lower e' desired).runIn env s = (.ok g, t') →
        ∃ t, (lower e desired).runIn env s = (.ok g, t) ∧ Matches Eq t' t := by
  -- Both are lowered just if the base is, and the base takes fewer levels than either leaves for it.
  obtain ⟨k, hk, hsingle⟩ : ∃ k, 4 * base.size ≤ k ∧ ∀ g t, (lower e desired).runIn env s = (.ok g, t) ↔
      ∃ b, (within k base none).runIn env { s with lowered := e.id :: s.lowered } = (.ok b, t) ∧
        g = path.read env.config (env.written s base b) := by
    have hsize : base.size ≤ e.size := by
      cases hselects
      simp only [Expr.size]
      omega
    exact ⟨4 * e.size + 7, by omega, fun g t =>
      runIn_selects_eq_ok_iff hplace hselects hinert desired s.lowered⟩
  obtain ⟨l, lowered, hl, hmany⟩ : ∃ l lowered, 4 * base.size ≤ l ∧
      ∀ g t, (lower e' desired).runIn env s = (.ok g, t) ↔
        ∃ b, (within l base none).runIn env { s with lowered } = (.ok b, t) ∧
          g = path.read env.config (env.written s base b) := by
    have hsize := hchain.size_le
    obtain ⟨l, hl⟩ : ∃ l, nestingBound e'.size = l + index.length :=
      ⟨nestingBound e'.size - index.length, by unfold nestingBound; omega⟩
    obtain ⟨lowered, value, -, hvalue, hrun⟩ := hchain.runIn_within hpath hinert l desired
      (fun hnil => absurd hnil hindex) s.lowered
    refine ⟨l, lowered, by unfold nestingBound at hl; omega, fun g t => ?_⟩
    simp only [hvalue hindex] at hrun
    rw [lower, hl]
    exact hrun g t
  constructor
  · intro t hrun
    obtain ⟨b, hbase, rfl⟩ := (hsingle g t).mp hrun
    obtain ⟨t', hagain, hmatches⟩ := within_again hk hl hbase lowered
    exact ⟨t', (hmany _ t').mpr ⟨b, hagain, rfl⟩, hmatches⟩
  · intro t' hrun
    obtain ⟨b, hbase, rfl⟩ := (hmany g t').mp hrun
    obtain ⟨t, hagain, hmatches⟩ := within_again hl hk hbase (e.id :: s.lowered)
    exact ⟨t, (hsingle _ t).mpr ⟨b, hagain, rfl⟩, hmatches⟩

end

/-- **Selection paths compose.** There is a way along `p ++ q` just if there is one along `p` and one along
`q` from where that leads; the names are those of both, and the type and the property those of the second.
There is a way just if each step finds a field. So a selector of a field that embedded fields lead to
and a chain of selectors along the same fields, of which none before the last is a property, are lowered
to the same text, or neither is lowered. -/
theorem Lower.selection_paths :
    (∀ (config : Config) (t : GoType) (p q : List Nat) (path : FieldPath), q ≠ [] →
      (resolvePath config t (p ++ q) = .ok path ↔
        ∃ a b, resolvePath config t p = .ok a ∧ resolvePath config a.type q = .ok b ∧
          path = { names := a.names ++ b.names, type := b.type, host := b.host })) ∧
    (∀ (config : Config) (t u : GoType) (p : List Nat),
      (∃ path, resolvePath config t p = .ok path ∧ path.type = u) ↔ t.Leads p u) ∧
    ∀ (env : Env) (s : FunctionState) (e e' base : Expr) (recv : GoType) (index : List Nat)
      (path : FieldPath), env.IsPlace s e → env.Selects s e base path →
      env.Chains s base recv index e' → resolvePath env.config recv index = .ok path → index ≠ [] →
      path.IsInert → ∀ (desired : Option GoType) (g : Fragment),
        (∀ t, (lower e desired).runIn env s = (.ok g, t) →
          ∃ t', (lower e' desired).runIn env s = (.ok g, t') ∧ Matches Eq t t') ∧
        ∀ t', (lower e' desired).runIn env s = (.ok g, t') →
          ∃ t, (lower e desired).runIn env s = (.ok g, t) ∧ Matches Eq t' t :=
  ⟨fun _ _ _ _ _ => resolvePath_append_eq_ok_iff, fun _ _ _ _ => exists_resolvePath_iff,
    fun _ _ _ _ _ _ _ _ hplace hselects hchain hpath hindex hinert =>
      lower_chain_iff hplace hselects hchain hpath hindex hinert⟩

/-- A struct that embeds a pointer to a payment. -/
def orderType : GoType :=
  .named "main.Order" (.struct
    [{ name := "Payment", type := .pointer (paymentType "share"), embedded := true }])

/-- `order.share` and `order.Payment.share` -/
def shareOfOrder : Build (Expr × Expr) := do
  let order ← Build.var "order" orderType
  let share ← Build.method order (.var "share" (.basic .string)) [0, 1] .fieldVal
  return (share, ← Build.field (← Build.field order 0) 1)

/-- What is known of them, with a host whose objects are reached. -/
def orderEnv : Env :=
  { facts := (shareOfOrder.run {}).2.facts, config := { host := some {} } }

/-- The way to the share of an order is that to its payment and the one from there, and the share is read
from the host object of the payment, however it is selected. -/
theorem Lower.selection_paths_shareOfOrder :
    (∃ a b, resolvePath orderEnv.config orderType [0] = .ok a ∧
      resolvePath orderEnv.config a.type [1] = .ok b ∧ a.names ++ b.names = ["Payment", "share"]) ∧
    orderType.Leads [0, 1] (.basic .string) ∧
    ∃ t', (lower (shareOfOrder.run {}).1.2 none).runIn orderEnv {} =
      (.ok (.atom "__internalize(order.Payment.object[\"share\"], \"string\")"), t') := by
  obtain ⟨hcompose, hleads, hchains⟩ := Lower.selection_paths
  have hpath : resolvePath orderEnv.config orderType [0, 1] =
      .ok ⟨["Payment", "share"], .basic .string, some ("object", "share")⟩ := rfl
  refine ⟨?_, (hleads orderEnv.config _ _ _).mp ⟨_, hpath, rfl⟩, ?_⟩
  · obtain ⟨a, b, ha, hb, heq⟩ := (hcompose orderEnv.config orderType [0] [1] _ (by decide)).mp hpath
    exact ⟨a, b, ha, hb, (congrArg FieldPath.names heq).symm⟩
  · have hinert : (FieldPath.mk ["Payment", "share"] (.basic .string)
        (some ("object", "share"))).IsInert := ⟨by decide, fun _ _ h => by cases h; decide⟩
    have hchain : orderEnv.Chains {} (.ident ⟨0, TreeBuilder.spanOf 0⟩ "order") orderType
        ([] ++ [0] ++ [1]) (shareOfOrder.run {}).1.2 :=
      .field (.field .base rfl rfl ⟨⟨_, rfl⟩, rfl⟩ rfl rfl rfl rfl) rfl rfl ⟨⟨_, rfl⟩, rfl⟩ rfl rfl rfl rfl
    have htext : ((lower (shareOfOrder.run {}).1.1 none).runIn orderEnv {}).1.toOption =
        some (.atom "__internalize(order.Payment.object[\"share\"], \"string\")") := by
      decide +kernel
    have hok : ((lower (shareOfOrder.run {}).1.1 none).runIn orderEnv {}).1.isOk = true := by
      decide +kernel
    obtain ⟨g, t, hrun⟩ := LowerM.exists_runIn_eq_ok hok
    rw [hrun] at htext
    obtain rfl := Option.some.inj htext
    obtain ⟨t', hrun', -⟩ := (hchains orderEnv {} _ _ _ _ _ _ ⟨⟨_, rfl⟩, rfl⟩ (.field rfl rfl hpath) hchain
      hpath (by decide) hinert none _).1 t hrun
    exact ⟨t', hrun'⟩

end GoLua
