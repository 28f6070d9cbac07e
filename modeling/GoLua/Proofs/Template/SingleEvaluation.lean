import GoLua.Proofs.Template.Pieces
import GoLua.Proofs.Template.Slots
import GoLua.Tree.Builder

/-!
# Templates evaluate once

A pattern may refer to an operand as often as it likes. An operand is *single* if writing it again
would evaluate it again: an expression that is no name and no constant, or text that is no name and
no number. This module says what becomes of the single operands.

* If none is referred to more than once, the pieces are written one after the other, and no single
  operand is lowered twice.
* Else the single operands up to the last such one, as far as they are referred to at all, are bound
  to locals of their own in the order of their places. Each is lowered once, all references to it are
  written by its name, and what is not bound is lowered once at most.

The runs behind a template are kept apart: `Binds` is the binding of an operand, and `Writes` is the
writing of a piece, which notes the place of the operand that is lowered for it.
-/

namespace GoLua.Template

open Lower

/-- **Single evaluation.** What the run of a template comes to. -/
inductive EvaluatesOnce (self : Lowering) (env : Env) (s : FunctionState) (operands : List Operand)
    (ps : List Piece) (parens : Bool) : Fragment → FunctionState → Prop where
  /-- No single operand is referred to twice: the pieces are written as they are. -/
  | inPlace {texts : List String} {places : List Nat} {s' : FunctionState}
      (unshared : ∀ i, isSingle env s operands i → useCount i ps ≤ 1)
      (body : WritesAll self env operands [] s ps texts places s')
      (once : ∀ i, isSingle env s operands i → places.count i ≤ 1) :
      EvaluatesOnce self env s operands ps parens ⟨String.join texts, parens⟩ s'
  /-- Else the pieces are written in a function that binds the single operands first, up to the last
  one that is referred to twice. -/
  | onTheSpot {last : Nat} {bound : List (Nat × LocalBinding)} {texts : List String}
      {places : List Nat} {s₁ s' : FunctionState}
      (shared : isSingle env s operands last ∧ 1 < useCount last ps)
      (greatest : ∀ i, isSingle env s operands i → 1 < useCount i ps → i ≤ last)
      (mem_bound : ∀ i, i ∈ bound.map Prod.fst ↔
        i ≤ last ∧ useCount i ps ≠ 0 ∧ isSingle env s operands i)
      (increasing : (bound.map Prod.fst).Pairwise (· < ·))
      (bindings : BindsAll self env operands s bound s₁)
      (distinct : (bound.map fun b => b.2.name).Nodup)
      (fresh : ∀ b ∈ bound, ∃ k, s.nextName ≤ k ∧ k < s₁.nextName ∧ b.2.name = "_t" ++ toString k)
      (body : WritesAll self env operands bound s₁ ps texts places s')
      (settled : ∀ i ∈ bound.map Prod.fst, i ∉ places)
      (once : ∀ i, isSingle env s operands i → places.count i ≤ 1) :
      EvaluatesOnce self env s operands ps parens
        (.atom (withLocals (bound.map Prod.snd) (String.join texts))) s'

/-! ### Binding -/

section

variable {self : Lowering} {env : Env} {operands : List Operand} {s s' : FunctionState}

/-- Whether an operand may be repeated is looked up without a change of the state. -/
theorem runIn_isRepeatable (env : Env) (s : FunctionState) (o : Operand) :
    (isRepeatable o).runIn env s = (.ok (o.isRepeatable (env.isConstant s)), s) := by
  cases o with
  | expr e =>
    simp only [isRepeatable, isRepeatableExpr, Operand.isRepeatable]
    cases e.unparen.isIdent <;> rfl
  | _ => rfl

/-- So are the slots of a pattern. -/
theorem runIn_slots (env : Env) (s : FunctionState) (operands : List Operand) (ps : List Piece) :
    (operands.zipIdx.mapM (slotFor ps)).runIn env s =
      (.ok (operands.zipIdx.map (slotOf (env.isConstant s) ps)), s) := by
  refine LowerM.runIn_mapM_of_still (fun o => ?_) operands.zipIdx
  rw [slotFor, LowerM.runIn_bind_ok (runIn_isRepeatable env s o.1)]
  rfl

/-- A slot is bound exactly if it is to be, and nothing happens else. -/
theorem binds_of_bindSlot {constant : NodeId → Bool} {slot : Slot} {b : Option LocalBinding}
    (hslot : slot.repeatable = slot.operand.isRepeatable constant)
    (h : (bindSlot self slot).runIn env s = (.ok b, s')) :
    (slot.binds = false ∧ b = none ∧ s' = s) ∨
      (slot.binds = true ∧ ∃ binding, b = some binding ∧ Binds self env slot.operand s binding s') := by
  obtain ⟨operand, uses, repeatable⟩ := slot
  unfold bindSlot at h
  cases hb : Slot.binds ⟨operand, uses, repeatable⟩ with
  | false =>
    have hskip : (uses == 0 || repeatable) = true := by
      simpa [Slot.binds, or_iff_not_imp_left] using hb
    rw [if_pos hskip] at h
    obtain ⟨rfl, rfl⟩ := LowerM.runIn_pure_eq_ok h
    exact .inl ⟨rfl, rfl, rfl⟩
  | true =>
    have hgo : ¬ (uses == 0 || repeatable) = true := by simpa [Slot.binds] using hb
    rw [if_neg hgo] at h
    cases operand with
    | expr e =>
      obtain ⟨value, s₁, hrun, h⟩ := LowerM.runIn_bind_eq_ok h
      obtain ⟨hb, rfl⟩ := Prod.mk.inj h
      exact .inr ⟨rfl, _, (Except.ok.inj hb).symm, .expr hrun⟩
    | lowered f =>
      obtain ⟨hb, rfl⟩ := Prod.mk.inj h
      exact .inr ⟨rfl, _, (Except.ok.inj hb).symm, .lowered⟩
    | _ =>
      -- Words of the pattern may always be repeated.
      change repeatable = true at hslot
      simp [hslot] at hgo

/-- The slots that are to be bound are bound in their order, each at its place. -/
theorem bindsAll_of_mapM {constant : NodeId → Bool} {slots : List Slot} {k : Nat}
    {bound : List (Option LocalBinding)}
    (hslots : ∀ i slot, slots[i]? = some slot → operands[k + i]? = some slot.operand ∧
      slot.repeatable = slot.operand.isRepeatable constant)
    (h : (slots.mapM (bindSlot self)).runIn env s = (.ok bound, s')) :
    BindsAll self env operands s (placed k bound) s' ∧
      bound.map Option.isSome = slots.map Slot.binds := by
  induction slots generalizing k s bound with
  | nil =>
    obtain ⟨rfl, rfl⟩ := LowerM.runIn_pure_eq_ok h
    exact ⟨.nil, rfl⟩
  | cons slot slots ih =>
    obtain ⟨b, s₁, rest, hhead, htail, rfl⟩ := LowerM.runIn_mapM_cons_eq_ok h
    obtain ⟨hoperand, hslot⟩ := hslots 0 slot rfl
    -- The rest of the slots belongs to the operands from the next place on.
    obtain ⟨hrest, hbinds⟩ := ih (k := k + 1)
      (fun i slot hi => by rw [Nat.add_right_comm]; exact hslots (i + 1) slot hi) htail
    rw [placed_cons, List.map_cons, List.map_cons, hbinds]
    rcases binds_of_bindSlot hslot hhead with ⟨hskip, rfl, rfl⟩ | ⟨hbound, binding, rfl, hbind⟩
    · exact ⟨hrest, by rw [hskip]; rfl⟩
    · exact ⟨.cons hoperand hbind hrest, by rw [hbound]; rfl⟩

end

/-! ### Templates -/

section

variable {env : Env} {operands : List Operand} {bound : List (Option LocalBinding)}
  {s s' : FunctionState} {pattern : String} {n : Nat} {p : Prices}

/-- What is bound, said of the slots: the places of the binding range that are to be bound. -/
theorem mem_places_iff {slots : List Slot} {i : Nat}
    (hbinds : bound.map Option.isSome = (bindingRange slots).map Slot.binds) :
    i ∈ (placed 0 bound).map Prod.fst ↔
      i < (bindingRange slots).length ∧ ∃ slot, slots[i]? = some slot ∧ slot.binds := by
  -- At each place of the range there is a binding exactly if the slot asks for one.
  have hget := congrArg (·[i]?) hbinds
  simp only [List.getElem?_map] at hget
  constructor
  · intro hi
    obtain ⟨⟨_, b⟩, hmem, rfl⟩ := List.mem_map.mp hi
    rw [mem_placed.mp hmem] at hget
    obtain ⟨slot, hslot, hb⟩ := Option.map_eq_some_iff.mp hget.symm
    have hlt := (List.getElem?_eq_some_iff.mp hslot).1
    exact ⟨hlt, slot, getElem?_bindingRange hlt ▸ hslot, hb⟩
  · rintro ⟨hlt, slot, hslot, hb⟩
    rw [getElem?_bindingRange hlt, hslot, Option.map_some, hb] at hget
    obtain ⟨b, hb, hsome⟩ := Option.map_eq_some_iff.mp hget
    obtain ⟨b, rfl⟩ := Option.isSome_iff_exists.mp hsome
    exact List.mem_map.mpr ⟨(i, b), mem_placed.mpr hb, rfl⟩

/-- A slot is bound when the pattern uses it and it may not be repeated. -/
theorem exists_binds_iff {ps : List Piece} {i : Nat} :
    (∃ slot, (operands.zipIdx.map (slotOf (env.isConstant s) ps))[i]? = some slot ∧ slot.binds) ↔
      useCount i ps ≠ 0 ∧ isSingle env s operands i := by
  rw [getElem?_slotOf, isSingle]
  cases operands[i]? with
  | none => simp
  | some o => simp [slotOf, Slot.binds]

/-- It has to be bound when the pattern uses it more than once. -/
theorem exists_mustBind_iff {ps : List Piece} {i : Nat} :
    (∃ slot, (operands.zipIdx.map (slotOf (env.isConstant s) ps))[i]? = some slot ∧ slot.mustBind) ↔
      1 < useCount i ps ∧ isSingle env s operands i := by
  rw [getElem?_slotOf, isSingle]
  cases operands[i]? with
  | none => simp
  | some o => simp [slotOf, Slot.mustBind]

/-- Which places are bound, and how far the binding range reaches, said of the operands. -/
structure BindsUpTo (env : Env) (s : FunctionState) (operands : List Operand) (ps : List Piece)
    (bound : List (Nat × LocalBinding)) (length : Nat) : Prop where
  reaches : ∀ i, i < length ↔ ∃ j, i ≤ j ∧ 1 < useCount j ps ∧ isSingle env s operands j
  mem_bound : ∀ i, i ∈ bound.map Prod.fst ↔
    i < length ∧ useCount i ps ≠ 0 ∧ isSingle env s operands i

/-- The bindings of the range reach from the first slot to the last one that has to be bound. -/
theorem bindsUpTo_placed {ps : List Piece} {slots : List Slot}
    (hslots : operands.zipIdx.map (slotOf (env.isConstant s) ps) = slots)
    (hbinds : bound.map Option.isSome = (bindingRange slots).map Slot.binds) :
    BindsUpTo env s operands ps (placed 0 bound) (bindingRange slots).length where
  reaches i := by
    rw [lt_length_bindingRange_iff]
    simp only [exists_and_left, ← hslots, exists_mustBind_iff]
  mem_bound i := by rw [mem_places_iff hbinds, ← hslots, exists_binds_iff]

namespace BindsUpTo

variable {ps : List Piece} {bindings : List (Nat × LocalBinding)} {length i : Nat}

theorem isSingle_of_mem (h : BindsUpTo env s operands ps bindings length)
    (hi : i ∈ bindings.map Prod.fst) : isSingle env s operands i :=
  ((h.mem_bound i).mp hi).2.2

/-- A single operand that is referred to twice is bound. -/
theorem mem_of_shared (h : BindsUpTo env s operands ps bindings length)
    (hi : isSingle env s operands i) (hshared : 1 < useCount i ps) : i ∈ bindings.map Prod.fst :=
  (h.mem_bound i).mpr ⟨(h.reaches i).mpr ⟨i, Nat.le_refl i, hshared, hi⟩, by omega, hi⟩

/-- What is not bound is referred to once, and what is lowered is not bound. -/
theorem count_le_one {self : Lowering} {texts : List String} {places : List Nat}
    {s₁ s' : FunctionState} (h : BindsUpTo env s operands ps bindings length)
    (hwrites : WritesAll self env operands bindings s₁ ps texts places s')
    (hi : isSingle env s operands i) : places.count i ≤ 1 := by
  obtain ⟨hunbound, hcount⟩ := hwrites.lowers i
  by_cases hplaces : i ∈ places
  · by_contra hmany
    exact hunbound hplaces (h.mem_of_shared hi (by omega))
  · rw [List.count_eq_zero_of_not_mem hplaces]
    exact Nat.zero_le 1

/-- Something is bound only because of a last operand that is referred to twice. -/
theorem exists_last (h : BindsUpTo env s operands ps bindings length)
    (hi : i ∈ bindings.map Prod.fst) :
    ∃ last, length = last + 1 ∧ 1 < useCount last ps ∧ isSingle env s operands last := by
  have hlt := ((h.mem_bound i).mp hi).1
  -- The end of the range is reached because of an operand that lies in the range itself.
  obtain ⟨j, hj, hshared, hsingle⟩ := (h.reaches (length - 1)).mp (by omega)
  have hjlt := (h.reaches j).mpr ⟨j, Nat.le_refl j, hshared, hsingle⟩
  obtain rfl : j = length - 1 := by omega
  exact ⟨length - 1, by omega, hshared, hsingle⟩

end BindsUpTo

/-- What a template comes to, once the places of its bindings are known. -/
theorem evaluatesOnce_of_writesAll (parens : Bool) {ps : List Piece} {s₁ : FunctionState}
    {texts : List String} {places : List Nat} {length : Nat} (hs : Ready p env s)
    (hplaces : BindsUpTo env s operands ps (placed 0 bound) length)
    (hbound : BindsAll (within n) env operands s (placed 0 bound) s₁)
    (hwrites : WritesAll (within n) env operands (placed 0 bound) s₁ ps texts places s') :
    EvaluatesOnce (within n) env s operands ps parens
      (match bound.filterMap id with
        | [] => ⟨String.join texts, parens⟩
        | bindings => .atom (withLocals bindings (String.join texts))) s' := by
  have honce (i : Nat) (hi : isSingle env s operands i) : places.count i ≤ 1 :=
    hplaces.count_le_one hwrites hi
  rw [← map_snd_placed 0 bound]
  have hincreasing := (pairwise_placed 0 bound).1
  -- The outcome has one case without bindings and one with them.
  generalize placed 0 bound = bindings at hplaces hbound hwrites hincreasing
  cases bindings with
  | nil =>
    cases hbound
    refine .inPlace (fun i hi => ?_) hwrites honce
    by_contra hmany
    exact List.not_mem_nil (hplaces.mem_of_shared hi (by omega))
  | cons b bindings =>
    obtain ⟨last, rfl, hshared, hlast⟩ := hplaces.exists_last List.mem_cons_self
    obtain ⟨ks, hnames, hks, hfree⟩ := hbound.names hs
    refine .onTheSpot ⟨hlast, hshared⟩ (fun i hi hi' => ?_) (fun i => ?_) hincreasing hbound ?_
      (fun b hb => ?_) hwrites (fun i hi hi' => (hwrites.lowers i).1 hi' hi) honce
    · exact Nat.le_of_lt_succ ((hplaces.reaches i).mpr ⟨i, Nat.le_refl i, hi', hi⟩)
    · rw [hplaces.mem_bound i, Nat.lt_succ_iff]
    · rw [hnames]
      refine (hks.map _ fun k l hkl hname => ?_)
      exact Nat.ne_of_lt hkl (toString_injective hname)
    · have hmem := List.mem_map_of_mem (f := fun b : Nat × LocalBinding => b.2.name) hb
      rw [hnames] at hmem
      obtain ⟨k, hk, hname⟩ := List.mem_map.mp hmem
      exact ⟨k, (hfree k hk).1, (hfree k hk).2, hname.symm⟩

/-- **Templates evaluate once.** A template that is rendered writes its pieces in order. A single
operand is lowered for them at most once; as soon as one is referred to more than once, it and the
single operands before it are bound to locals, lowered once each, and written by their names. -/
theorem renderAs_evaluates_once {parens : Bool} {f : Fragment}
    (h : (renderAs parens (within n) pattern operands).runIn env s = (.ok f, s')) :
    ∃ ps, parse operands.length pattern = .ok ps ∧
      EvaluatesOnce (within n) env s operands ps parens f s' := by
  unfold renderAs at h
  cases hparse : parse operands.length pattern with
  | error fault =>
    rw [hparse] at h
    cases (Prod.mk.inj h).1
  | ok ps =>
    rw [hparse] at h
    refine ⟨ps, rfl, ?_⟩
    dsimp only at h
    rw [LowerM.runIn_bind_ok (runIn_slots env s operands ps)] at h
    generalize hslots : operands.zipIdx.map (slotOf (env.isConstant s) ps) = slots at h
    obtain ⟨bound, s₁, hbound, h⟩ := LowerM.runIn_bind_eq_ok h
    obtain ⟨texts, s₂, htexts, h⟩ := LowerM.runIn_bind_eq_ok h
    have hslot (i : Nat) (slot : Slot) (hi : (bindingRange slots)[i]? = some slot) :
        operands[0 + i]? = some slot.operand ∧ slot.repeatable =
          slot.operand.isRepeatable (env.isConstant s) := by
      rw [getElem?_bindingRange (List.getElem?_eq_some_iff.mp hi).1, ← hslots, getElem?_slotOf] at hi
      obtain ⟨o, ho, rfl⟩ := Option.map_eq_some_iff.mp hi
      exact ⟨by rwa [Nat.zero_add], rfl⟩
    obtain ⟨hall, hbinds⟩ := bindsAll_of_mapM hslot hbound
    have hplaces := bindsUpTo_placed hslots hbinds
    have hs := ready_freePrices env s
    have hsteady := hall.steady hs
    -- Binding changes nothing about which operands are single, so the names fit the pieces.
    obtain ⟨places, hwrites⟩ := writesAll_of_mapM (hs.steady hsteady)
      (fun i hi => by rw [isSingle_steady hsteady]; exact hplaces.isSingle_of_mem hi) htexts
    have hresult := evaluatesOnce_of_writesAll parens hs hplaces hall hwrites
    cases hbindings : bound.filterMap id with
    | nil | cons =>
      rw [hbindings] at h hresult
      obtain ⟨hf, rfl⟩ := Prod.mk.inj h
      rwa [← Except.ok.inj hf]

/-- `f()` and `g()` -/
def twoCalls : Build (List Operand) := do
  let int := GoType.basic .int
  let f ← Build.func "f" { params := [], results := [int] }
  let first := Expr.call (← Build.node int) f [] false
  let g ← Build.func "g" { params := [], results := [int] }
  let second := Expr.call (← Build.node int) g [] false
  return [.expr first, .expr second]

/-- The first call is bound as well, although it is referred to once. -/
theorem renderAs_evaluates_once_twoCalls :
    ∃ f s', (renderAs true (within 3) "%e + %2e * %2e" (twoCalls.run {}).1).runIn
        { facts := (twoCalls.run {}).2.facts } {} = (.ok f, s') ∧
      f = .atom "(function() local _t0 = f(); local _t1 = g(); return _t0 + _t1 * _t1 end)()" ∧
      ∃ ps, parse (twoCalls.run {}).1.length "%e + %2e * %2e" = .ok ps ∧
        EvaluatesOnce (within 3) { facts := (twoCalls.run {}).2.facts } {} (twoCalls.run {}).1 ps
          true f s' := by
  have htext : ((renderAs true (within 3) "%e + %2e * %2e" (twoCalls.run {}).1).runIn
      { facts := (twoCalls.run {}).2.facts } {}).1.toOption = some (.atom
        "(function() local _t0 = f(); local _t1 = g(); return _t0 + _t1 * _t1 end)()") := by
    decide +kernel
  rcases hrun : (renderAs true (within 3) "%e + %2e * %2e" (twoCalls.run {}).1).runIn
      { facts := (twoCalls.run {}).2.facts } {} with ⟨err | f, s'⟩
  · rw [hrun] at htext
    cases htext
  · rw [hrun] at htext
    exact ⟨f, s', rfl, Option.some.inj htext, renderAs_evaluates_once hrun⟩

end

end GoLua.Template
