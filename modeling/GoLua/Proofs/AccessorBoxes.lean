import GoLua.Proofs.Address
import GoLua.Proofs.ResumeSteps

/-!
# Accessor boxes

Two addresses of one variable have to be the same pointer, so the accessor of a variable is kept in a box
of its own, under a name that is minted when it is first asked for. A box is asked for by the key of the
variable. Three things are to be told apart here:

* *boxes are never given up*: what has been found by a key is found by it ever after, whatever is
  lowered in between (`KeepsBoxes`, a law of runs);
* *different keys have different boxes*: the key can be read back from the name of the box
  (`KeepsBoxes.box_eq_iff`);
* *different variables may have one key*, because a key blurs names (`accessorKey_eq_iff`).

So boxes are told apart by keys and not by variables (`Session.addresses_share_boxes`). For names that Lua
can spell there is no difference; for a qualified name and one with an underscore there is
(`accessorBox_shared`).
-/

namespace GoLua

open Lower Lua

/-! ### Boxes that are kept -/

/-- A box that is found is found after another one is asked for. -/
theorem lookup_accessorBox_of_lookup {s : FunctionState} {key box : String}
    (h : s.accessorBoxes.lookup key = some box) (other : String) :
    (s.accessorBox other).2.accessorBoxes.lookup key = some box := by
  unfold FunctionState.accessorBox
  cases s.accessorBoxes.lookup other with
  | some => exact h
  | none =>
    -- A new box stands behind the old ones, so an old one is found first.
    change (s.accessorBoxes ++ [_]).lookup key = _
    rw [List.lookup_append, h, Option.some_or]

/-- **What happens to boxes.** They are found where they were, and what else is found by a key has been
minted for it. -/
structure KeepsBoxes (s s' : FunctionState) : Prop where
  kept : ∀ key box, s.accessorBoxes.lookup key = some box → s'.accessorBoxes.lookup key = some box
  minted : ∀ key box, s'.accessorBoxes.lookup key = some box →
    s.accessorBoxes.lookup key = some box ∨
      isHint (key ++ "_ptr") ∧ ∃ n : Nat, box = key ++ "_ptr" ++ toString n

namespace KeepsBoxes

variable {s s₁ s' : FunctionState} {key key' box box' : String}

/-- At most something else has changed. -/
theorem of_eq (h : s'.accessorBoxes = s.accessorBoxes) : KeepsBoxes s s' where
  kept key box hbox := by rwa [h]
  minted key box hbox := .inl (by rwa [h] at hbox)

theorem refl (s : FunctionState) : KeepsBoxes s s :=
  of_eq rfl

/-- Boxes that are kept twice are kept. -/
theorem trans (h : KeepsBoxes s s₁) (h' : KeepsBoxes s₁ s') : KeepsBoxes s s' where
  kept key box hbox := h'.kept key box (h.kept key box hbox)
  minted key box hbox := (h'.minted key box hbox).elim (h.minted key box) .inr

/-- A box is found, or minted for the key that it is asked for by. -/
theorem accessorBox (s : FunctionState) (hkey : isHint (key ++ "_ptr")) :
    KeepsBoxes s (s.accessorBox key).2 := by
  -- A box that was there is found before the new one, which is the only one added.
  refine ⟨fun other box hbox => lookup_accessorBox_of_lookup hbox key, fun other box hbox => ?_⟩
  unfold FunctionState.accessorBox at hbox
  cases hfound : s.accessorBoxes.lookup key with
  | some =>
    rw [hfound] at hbox
    exact .inl hbox
  | none =>
    rw [hfound] at hbox
    change (s.accessorBoxes ++ [(key, key ++ "_ptr" ++ toString s.nextName)]).lookup other = _ at hbox
    rw [List.lookup_append] at hbox
    cases hother : s.accessorBoxes.lookup other with
    | some old =>
      rw [hother, Option.some_or] at hbox
      exact .inl hbox
    | none =>
      rw [hother, Option.none_or, List.lookup_cons] at hbox
      split at hbox
      · next heq =>
        obtain rfl : other = key := eq_of_beq heq
        exact .inr ⟨hkey, s.nextName, (Option.some.inj hbox).symm⟩
      · cases hbox

/-- Statements may be cut off and put back. -/
theorem insert {s₂ : FunctionState} {mark : Nat} (h : KeepsBoxes s s₁)
    (h' : KeepsBoxes (s₁.splitAt mark).2 s₂) (stmts : List Statement) :
    KeepsBoxes s (s₂.putBack stmts) := by
  have hcut : KeepsBoxes s₁ (s₁.splitAt mark).2 := of_eq rfl
  have hput : KeepsBoxes s₂ (s₂.putBack stmts) := of_eq rfl
  exact h.trans (hcut.trans (h'.trans hput))

/-- **Boxes are told apart by their keys.** -/
theorem box_eq_iff (h : KeepsBoxes {} s) (hbox : s.accessorBoxes.lookup key = some box)
    (hbox' : s.accessorBoxes.lookup key' = some box') : box = box' ↔ key = key' := by
  constructor
  · -- Nothing was found at the start, so both are minted, and what a name is minted from can be read back.
    rintro rfl
    obtain hnone | ⟨hhint, n, hname⟩ := h.minted key box hbox
    · cases hnone
    obtain hnone | ⟨hhint', n', hname'⟩ := h.minted key' box hbox'
    · cases hnone
    exact (String.append_left_inj "_ptr").mp (minted_injective hhint hhint' (hname.symm.trans hname')).1
  · rintro rfl
    exact Option.some.inj (hbox.symm.trans hbox')

end KeepsBoxes

/-- What has been asked for by a key is found by it. -/
theorem lookup_accessorBox (s : FunctionState) (key : String) :
    (s.accessorBox key).2.accessorBoxes.lookup key = some (s.accessorBox key).1 := by
  unfold FunctionState.accessorBox
  cases hfound : s.accessorBoxes.lookup key with
  | some box => exact hfound
  | none =>
    change (s.accessorBoxes ++ [(key, _)]).lookup key = _
    simp [List.lookup_append, hfound]

/-- **Keeping boxes.** No step of lowering gives a box up, and none finds one under a key that it was not
minted for. -/
def keepingBoxes (p : Prices) : RunLaw p where
  rel _ _ _ s s' := KeepsBoxes s s'
  stay := .refl _
  spend h _ := h
  trans h h' := h.trans h'
  newLocal _ := .of_eq rfl
  accessorBox _ hkey := .accessorBox _ hkey
  reportError _ _ := .of_eq rfl
  newNode _ _ := .of_eq rfl
  use _ _ _ _ := .of_eq rfl
  select _ _ _ _ := .of_eq rfl
  mark _ _ _ := .of_eq rfl
  visit _ := .of_eq rfl
  request _ _ := .of_eq rfl
  keep _ _ _ := .of_eq rfl
  assign _ _ _ _ := .of_eq rfl
  callStatement _ _ _ := .of_eq rfl
  callValue _ _ _ := .of_eq rfl
  native _ h h' _ := h.trans h'
  guard _ _ _ _ h h' := (h.trans h').trans (.of_eq rfl)
  stuck _ h := h
  insert h h' := h.insert h' _

/-- A run keeps boxes, whether it succeeds or not. -/
theorem KeepsBoxes.of_within (m : Nat) (e : Expr) (desired : Option GoType) (env : Env)
    (s : FunctionState) : KeepsBoxes s ((within m e desired).runIn env s).2 :=
  ((keepingBoxes (freePrices env s)).holds_within m e desired env s (ready_freePrices env s) _ _ rfl).rel

/-- A request keeps the boxes it finds. -/
theorem KeepsBoxes.of_request (request : Request) (env : Env) (s : FunctionState) :
    KeepsBoxes s (request.run.runIn env s).2 := by
  obtain ⟨w, hbuilt⟩ := request.built (freePrices env s)
  have hself := (keepingBoxes (freePrices env s)).holds_within request.depth
  exact (RunLaw.holds_of_built hself hbuilt env s (ready_freePrices env s) _ _ rfl).rel

/-- So does a session. -/
theorem KeepsBoxes.of_session (session : Session) (actions : List Action) :
    KeepsBoxes session.state (actions.foldl Session.act session).state := by
  induction actions generalizing session with
  | nil => exact .refl _
  | cons action actions ih =>
    refine KeepsBoxes.trans ?_ (ih (session.act action))
    cases action with
    | run env request => exact .of_request request env session.state
    | drain => exact .of_eq rfl

/-! ### Addresses of variables -/

/-- An address of a variable that is in no box and holds no aggregate. -/
inductive Env.AddressesVariable (env : Env) (s : FunctionState) : Expr → Object → Prop where
  | intro {ν : Node} {operand : Expr} {name : String} {obj : Object}
      (address : env.TakesAddress s ν operand) (names : env.Names s operand.unparen name obj)
      (isUnboxed : obj.escaping = false) : Env.AddressesVariable env s (.unary ν .addrOf operand) obj

theorem Env.AddressesVariable.runIn_within {env : Env} {s : FunctionState} {e : Expr} {obj : Object}
    (h : env.AddressesVariable s e obj) (m : Nat) (desired : Option GoType) :
    ∃ box s', (within (m + 1) e desired).runIn env s =
        (.ok (.atom (cachedAccessor box (objectName env.config obj))), s') ∧
      s'.accessorBoxes.lookup (accessorKey (objectName env.config obj)) = some box := by
  cases h with
  | intro address names isUnboxed =>
    have hrun := (runIn_address_variable address names (within m) desired).trans
      (runIn_variableAccessor_local isUnboxed)
    exact ⟨_, _, hrun, lookup_accessorBox _ _⟩

/-- **Addresses share boxes** just if the names of the variables have one key.

All that happens in a session keeps boxes, and so does every run inside of a run. From any state that is
reached, and then from any that is reached later: the addresses of two variables that are in no box and hold
no aggregates are accessors of the variables, kept in boxes that are the same just if the emitted names have
the same key. So two addresses of one name share a box, and if Lua can spell both names, no others do. -/
theorem Session.addresses_share_boxes (actions : List Action) (env : Env) (s : FunctionState) (e : Expr)
    (obj : Object) (m : Nat) (desired : Option GoType) :
    KeepsBoxes {} (actions.foldl act {}).state ∧
    KeepsBoxes s ((within m e desired).runIn env s).2 ∧
    (KeepsBoxes {} s → env.AddressesVariable s e obj →
      ∃ box s₁, (within (m + 1) e desired).runIn env s =
          (.ok (.atom (cachedAccessor box (objectName env.config obj))), s₁) ∧
        ∀ (env' : Env) (s' : FunctionState) (e' : Expr) (obj' : Object) (m' : Nat)
          (desired' : Option GoType), KeepsBoxes s₁ s' → env'.AddressesVariable s' e' obj' →
            ∃ box' s₂, (within (m' + 1) e' desired').runIn env' s' =
                (.ok (.atom (cachedAccessor box' (objectName env'.config obj'))), s₂) ∧
              (objectName env.config obj = objectName env'.config obj' → box = box') ∧
              (box = box' ↔ SameKey (objectName env.config obj) (objectName env'.config obj')) ∧
              ((∀ c ∈ (objectName env.config obj).toList, isNameChar c) →
                (∀ c ∈ (objectName env'.config obj').toList, isNameChar c) →
                  (box = box' ↔ objectName env.config obj = objectName env'.config obj'))) := by
  refine ⟨.of_session {} actions, .of_within m e desired env s, fun hreached h => ?_⟩
  obtain ⟨box, s₁, hrun, hbox⟩ := h.runIn_within m desired
  refine ⟨box, s₁, hrun, fun env' s' e' obj' m' desired' hlater h' => ?_⟩
  obtain ⟨box', s₂, hrun', hbox'⟩ := h'.runIn_within m' desired'
  -- The first box is still there when the second one is asked for.
  have hfirst : KeepsBoxes s s₁ := by
    have hkept := KeepsBoxes.of_within (m + 1) e desired env s
    rwa [hrun] at hkept
  have hsecond : KeepsBoxes s' s₂ := by
    have hkept := KeepsBoxes.of_within (m' + 1) e' desired' env' s'
    rwa [hrun'] at hkept
  have hboxes : box = box' ↔
      accessorKey (objectName env.config obj) = accessorKey (objectName env'.config obj') :=
    ((hreached.trans hfirst).trans (hlater.trans hsecond)).box_eq_iff
      ((hlater.trans hsecond).kept _ _ hbox) hbox'
  refine ⟨box', s₂, hrun', fun hsame => hboxes.mpr (by rw [hsame]), hboxes.trans accessorKey_eq_iff,
    fun hnamed hnamed' => ?_⟩
  rw [hboxes, accessorKey_of_forall hnamed, accessorKey_of_forall hnamed']

/-- `&x` and `&y`, for two integers -/
def addressesOfLocals : Build (Expr × Expr) := do
  let p ← addressOfPlace (← Build.var "x" (.basic .int))
  return (p, ← addressOfPlace (← Build.var "y" (.basic .int)))

/-- The facts about `addressesOfLocals`. -/
def localsEnv : Env :=
  { facts := (addressesOfLocals.run {}).2.facts }

/-- Two local variables have boxes of their own. -/
theorem Session.addresses_share_boxes_locals :
    ∃ p q box box' s₁ s₂, (addressesOfLocals.run {}).1 = (p, q) ∧
      (within 1 p none).runIn localsEnv {} = (.ok (.atom (cachedAccessor box "x")), s₁) ∧
      (within 1 q none).runIn localsEnv s₁ = (.ok (.atom (cachedAccessor box' "y")), s₂) ∧
      box ≠ box' := by
  have hx : localsEnv.AddressesVariable {} (addressesOfLocals.run {}).1.1 (.var "x" (.basic .int)) :=
    .intro ⟨⟨_, rfl, rfl⟩, rfl, ⟨_, rfl, rfl⟩⟩ (.ident rfl) rfl
  obtain ⟨-, -, hboxes⟩ := Session.addresses_share_boxes [] localsEnv {} _ _ 0 none
  obtain ⟨box, s₁, hrun, hlater⟩ := hboxes (.refl _) hx
  obtain rfl : ((within 1 (addressesOfLocals.run {}).1.1 none).runIn localsEnv {}).2 = s₁ :=
    congrArg Prod.snd hrun
  have hy : localsEnv.AddressesVariable ((within 1 (addressesOfLocals.run {}).1.1 none).runIn
      localsEnv {}).2 (addressesOfLocals.run {}).1.2 (.var "y" (.basic .int)) :=
    .intro ⟨⟨_, rfl, rfl⟩, rfl, ⟨_, rfl, rfl⟩⟩ (.ident rfl) rfl
  obtain ⟨box', s₂, hrun', -, -, hsame⟩ := hlater localsEnv _ _ _ 0 none (.refl _) hy
  refine ⟨_, _, box, box', _, s₂, rfl, hrun, hrun', ?_⟩
  rw [Ne, hsame (by decide) (by decide)]
  decide

/-- The total that a package of statistics declares. -/
def statsTotal : Object :=
  { Object.var "Total" (.basic .int) with package := some "app/stats" }

/-- `&stats.Total` and `&stats_Total`, for two integers -/
def addressesOfTotals : Build (Expr × Expr) := do
  let p ← addressOfPlace (← Build.qualified "app/stats" statsTotal)
  return (p, ← addressOfPlace (← Build.var "stats_Total" (.basic .int)))

/-- The facts about `addressesOfTotals`. -/
def totalsEnv : Env :=
  { facts := (addressesOfTotals.run {}).2.facts }

/-- Two variables share a box although their names are different: the dot of a qualified name and an
underscore are the same in a key. -/
theorem accessorBox_shared :
    let (p, q) := (addressesOfTotals.run {}).1
    let first := (lower p none).runIn totalsEnv {}
    totalsEnv.AddressesVariable {} p statsTotal ∧
      totalsEnv.AddressesVariable first.2 q (.var "stats_Total" (.basic .int)) ∧
      first.1.toOption = some (.atom (cachedAccessor "stats_Total_ptr0" "stats.Total")) ∧
      ((lower q none).runIn totalsEnv first.2).1.toOption =
        some (.atom (cachedAccessor "stats_Total_ptr0" "stats_Total")) := by
  refine ⟨.intro ⟨⟨_, rfl, rfl⟩, rfl, ⟨_, rfl, rfl⟩⟩ (.qualified rfl rfl) rfl,
    .intro ⟨⟨_, rfl, rfl⟩, rfl, ⟨_, rfl, rfl⟩⟩ (.ident rfl) rfl, ?_, ?_⟩
  · decide +kernel
  · decide +kernel

end GoLua
