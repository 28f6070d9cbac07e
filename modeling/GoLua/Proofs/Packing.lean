import GoLua.Proofs.Annotations
import GoLua.Proofs.SourceOrder.Argument

/-!
# Packing the arguments of a call

Between the source and what is passed, the arguments of a call change three times. A single tuple is
spread into its elements, texts are moved into temporaries, and a variadic function gets the last ones
as a slice. This module says that nothing is lost on the way and nothing comes twice
(`arguments_packed`).

* The *effective* arguments are those of the source, or the elements of the tuple in their order
  (`EffectiveArgs`). An element is read from the temporary that the tuple is kept in.
* Each of them is converted to the type of its parameter, or to the element type of the slice
  (`passedType?`).
* Their texts are passed one by one, or the last ones in the slice (`PassesAll`).
-/

namespace GoLua.Lower

open Lua Text

/-! ### Elements of a tuple -/

/-- An expression reads an element of the tuple that a variable holds. -/
structure ReadsElement (env : Env) (s : FunctionState) (tuple : String) (i : Nat) (type : GoType)
    (arg : Expr) : Prop where
  named : arg.identName? = some (tuple ++ "[" ++ toString i ++ "]")
  typed : env.type? s arg.id = some type
  bound : env.binding s arg.id = .use (.var (tuple ++ "[" ++ toString i ++ "]") type)

section

variable {env : Env} {s s' : FunctionState} {tuple name : String} {type : GoType} {span : Span}
  {arg : Expr} {args : List Expr} {types : List GoType}

/-! What is noted of a node comes before the facts of the program. -/

/-- A node that was noted has the type it was noted with. -/
theorem type?_of_noted {id : NodeId} (h : s.overlay.types.get? id = some type) :
    env.type? s id = some type := by
  rw [Env.type?, h]
  rfl

/-- And the object. -/
theorem binding_of_noted {id : NodeId} {obj : Object} (h : s.overlay.uses.get? id = some obj) :
    env.binding s id = .use obj := by
  rw [Env.binding, h]

/-- A new variable is known by its name and type, and all that is known about older nodes stays. -/
theorem synthesizeVar_ok (h : (synthesizeVar name type span).runIn env s = (.ok arg, s')) :
    arg.identName? = some name ∧ arg.id = s.nextSynthetic ∧ env.type? s' arg.id = some type ∧
      env.binding s' arg.id = .use (.var name type) ∧ s'.pending = s.pending ∧
      s'.nextSynthetic = s.nextSynthetic + 1 ∧
      ∀ id < s.nextSynthetic, s.overlay.AgreesAt s'.overlay id := by
  unfold synthesizeVar synthesizeUse at h
  rw [LowerM.runIn_bind_ok (runIn_synthesizeNode env s type span)] at h
  obtain ⟨harg, rfl⟩ := Prod.mk.inj h
  obtain rfl := Except.ok.inj harg
  refine ⟨rfl, rfl, ?_, ?_, rfl, rfl, fun id hid => ?_⟩
  · exact type?_of_noted (s.overlay.types.get?_insert_self s.nextSynthetic type)
  · exact binding_of_noted (s.overlay.uses.get?_insert_self s.nextSynthetic (.var name type))
  · have hne : s.nextSynthetic ≠ id := Nat.ne_of_gt hid
    exact (Overlay.AgreesAt.insertType hne type).trans (.insertUse hne _)

/-- Later notes at other nodes do not change what an expression reads. -/
theorem ReadsElement.later {i : Nat} (h : ReadsElement env s tuple i type arg)
    (hagrees : s.overlay.AgreesAt s'.overlay arg.id) : ReadsElement env s' tuple i type arg :=
  ⟨h.named, (hagrees.type? env).trans h.typed, (hagrees.binding env).trans h.bound⟩

/-- The variables for the elements of a tuple come in the order of the elements, and what is known about
one of them stays when the next ones are made. -/
theorem mapM_synthesizeVar_ok {k : Nat}
    (h : ((types.zipIdx k).mapM fun p : GoType × Nat =>
      synthesizeVar (tuple ++ "[" ++ toString p.2 ++ "]") p.1 span).runIn env s = (.ok args, s')) :
    args.length = types.length ∧ s'.pending = s.pending ∧
      (∀ id < s.nextSynthetic, s.overlay.AgreesAt s'.overlay id) ∧
      ∀ i type, types[i]? = some type →
        ∃ arg, args[i]? = some arg ∧ ReadsElement env s' tuple (k + i) type arg := by
  induction types generalizing k s args with
  | nil =>
    obtain ⟨rfl, rfl⟩ := LowerM.runIn_pure_eq_ok h
    exact ⟨rfl, rfl, fun id _ => .refl _ id, by simp⟩
  | cons first types ih =>
    obtain ⟨arg, s₁, rest, harg, hrest, rfl⟩ := LowerM.runIn_mapM_cons_eq_ok h
    obtain ⟨hnamed, hid, htyped, hbound, hpending₁, hnext, hold⟩ := synthesizeVar_ok harg
    obtain ⟨hlength, hpending, hlater, helements⟩ := ih hrest
    refine ⟨congrArg Nat.succ hlength, hpending.trans hpending₁, fun id hlt => ?_,
      fun i type htype => ?_⟩
    · exact (hold id hlt).trans (hlater id (hnext ▸ Nat.lt_succ_of_lt hlt))
    · cases i with
      | zero =>
        -- The nodes that are made later have larger numbers, so this one stays as it is.
        obtain rfl := Option.some.inj htype
        have hfirst : ReadsElement env s₁ tuple k first arg := ⟨hnamed, htyped, hbound⟩
        exact ⟨arg, rfl, hfirst.later (hlater arg.id (hid ▸ hnext ▸ Nat.lt_succ_self _))⟩
      | succ i =>
        obtain ⟨other, hother, hreads⟩ := helements i type htype
        exact ⟨other, hother, by rwa [Nat.add_assoc, Nat.add_comm 1] at hreads⟩

end

/-! ### Effective arguments -/

/-- **Effective arguments.** They are the arguments of the source, or, where there is one argument and it
is a tuple of several, the elements of the tuple, which is kept before anything else is lowered. The
state is the one in which they are lowered. -/
inductive EffectiveArgs (self : Lowering) (env : Env) (s : FunctionState) (args : List Expr) :
    List Expr → FunctionState → Prop
  | source (h : ∀ single types, args = [single] → env.type? s single.id = some (.tuple types) →
      types.length ≤ 1) : EffectiveArgs self env s args args s
  | spread {single : Expr} {types : List GoType} {value : Fragment} {tuple : String}
      {args' : List Expr} {s₁ s₀ : FunctionState} (single_arg : args = [single])
      (type : env.type? s single.id = some (.tuple types)) (several : 1 < types.length)
      (lowered : (self single none).runIn env s = (.ok value, s₁))
      (kept : s₀.pending = s₁.pending ++ [.assign tuple value.text])
      (length : args'.length = types.length)
      (elements : ∀ i type, types[i]? = some type →
        ∃ arg, args'[i]? = some arg ∧ ReadsElement env s₀ tuple i type arg) :
      EffectiveArgs self env s args args' s₀

section

variable {self : Lowering} {env : Env} {s s' : FunctionState} {args args' : List Expr}

/-- What `spreadTypes` finds are the types of a single argument, if they are several. -/
theorem spreadTypes_ok {found : Option (List GoType)}
    (h : (spreadTypes args).runIn env s = (.ok found, s')) :
    s' = s ∧ ((∃ single types, found = some types ∧ args = [single] ∧
        env.type? s single.id = some (.tuple types) ∧ 1 < types.length) ∨
      found = none ∧ ∀ single types, args = [single] →
        env.type? s single.id = some (.tuple types) → types.length ≤ 1) := by
  -- A single argument of a tuple type is spread if it has several elements; in all other cases
  -- nothing is.
  unfold spreadTypes at h
  split at h
  · next single =>
    obtain ⟨type, s₁, htype, hmatch⟩ := LowerM.runIn_bind_eq_ok h
    obtain ⟨hknown, rfl⟩ := runIn_typeOf_eq_ok htype
    split at hmatch
    · next types =>
      obtain ⟨hfound, rfl⟩ := LowerM.runIn_pure_eq_ok hmatch
      split at hfound
      · next hseveral => exact ⟨rfl, .inl ⟨single, types, hfound.symm, rfl, hknown, hseveral⟩⟩
      · next hfew =>
        refine ⟨rfl, .inr ⟨hfound.symm, fun other types' hother htypes => ?_⟩⟩
        cases hother
        cases hknown.symm.trans htypes
        exact Nat.le_of_not_lt hfew
    · next hnot =>
      obtain ⟨hfound, rfl⟩ := LowerM.runIn_pure_eq_ok hmatch
      refine ⟨rfl, .inr ⟨hfound.symm, fun other types' hother htypes => ?_⟩⟩
      cases hother
      cases hknown.symm.trans htypes
      exact absurd rfl (hnot types')
  · next hnot =>
    obtain ⟨hfound, rfl⟩ := LowerM.runIn_pure_eq_ok h
    exact ⟨rfl, .inr ⟨hfound.symm, fun single _ hsingle => absurd hsingle (hnot single)⟩⟩

/-- The arguments that a call passes are its own, or the elements of one tuple. -/
theorem effectiveArgs_ok (h : (effectiveArgs self args).runIn env s = (.ok args', s')) :
    EffectiveArgs self env s args args' s' := by
  obtain ⟨found, s₁, hfound, h⟩ := LowerM.runIn_bind_eq_ok h
  obtain ⟨rfl, ⟨single, types, rfl, rfl, htype, hseveral⟩ | ⟨rfl, hfew⟩⟩ := spreadTypes_ok hfound
  · obtain ⟨value, s₂, hvalue, h⟩ := LowerM.runIn_bind_eq_ok h
    rw [LowerM.runIn_bind_ok (runIn_keepInTemporary env s₂ "_tuple" value.text)] at h
    obtain ⟨hlength, hpending, -, helements⟩ := mapM_synthesizeVar_ok h
    exact .spread rfl htype hseveral hvalue hpending hlength
      fun i type hi => by simpa only [Nat.zero_add] using helements i type hi
  · obtain ⟨rfl, rfl⟩ := LowerM.runIn_pure_eq_ok h
    exact .source hfew

end

/-! ### Types of parameters -/

/-- **Packing.** A variadic call without an ellipsis packs its last arguments into a slice of the type
of its last parameter; other calls pack nothing. -/
inductive PacksInto (sig : Signature) (ellipsis : Bool) : Option GoType → Prop
  | nothing (h : sig.variadic = false ∨ ellipsis = true) : PacksInto sig ellipsis none
  | slice {param elem : GoType} (variadic : sig.variadic = true) (no_ellipsis : ellipsis = false)
      (last : sig.params.getLast? = some param) (h : param.underlying = .slice elem) :
      PacksInto sig ellipsis (some elem)

/-- The type that the argument at a place is converted to, if the call has one for it. -/
def passedType? (sig : Signature) (packed : Option GoType) (i : Nat) : Option GoType :=
  match packed with
  | none => sig.params[i]?
  | some elem => if i < sig.params.length - 1 then sig.params[i]? else some elem

/-- The text of an argument, converted to the type for its place. What there is no parameter for keeps
its own type. -/
def passedText (self : Lowering) (sig : Signature) (packed : Option GoType) (arg : Expr × Nat) :
    LowerM String :=
  match passedType? sig packed arg.2 with
  | some type => valueText self type arg.1
  | none => do valueText self (← typeOf arg.1) arg.1

section

variable {self : Lowering} {env : Env} {s s' : FunctionState} {e : Expr} {sig : Signature}
  {ellipsis : Bool} {packed : Option GoType}

/-- What packs depends on the last parameter. -/
theorem packedElem_ok (h : (packedElem e sig ellipsis).runIn env s = (.ok packed, s')) :
    PacksInto sig ellipsis packed := by
  unfold packedElem at h
  split at h
  · next hpacks =>
    rw [Bool.and_eq_true, Bool.not_eq_true'] at hpacks
    split at h
    · next elem hlast =>
      obtain ⟨rfl, -⟩ := LowerM.runIn_pure_eq_ok h
      obtain ⟨param, hparam, hslice⟩ := Option.map_eq_some_iff.mp hlast
      exact .slice hpacks.1 hpacks.2 hparam hslice
    · cases h
  · next hpacks =>
    obtain ⟨rfl, -⟩ := LowerM.runIn_pure_eq_ok h
    rw [Bool.not_eq_true, Bool.and_eq_false_iff, Bool.not_eq_false'] at hpacks
    exact .nothing hpacks

/-- The text of an argument is that of what is passed at its place. -/
theorem argumentText_eq (self : Lowering) (sig : Signature) (packed : Option GoType)
    (arg : Expr × Nat) : argumentText self sig packed arg = passedText self sig packed arg := by
  unfold argumentText passedText passedType? argType
  cases packed with
  | none => cases sig.params[arg.2]? <;> rfl
  | some elem =>
    dsimp only
    by_cases hfixed : arg.2 < sig.params.length - 1
    · have hparam : sig.params[arg.2]? = some sig.params[arg.2] :=
        List.getElem?_eq_getElem (Nat.lt_of_lt_of_le hfixed (Nat.sub_le _ _))
      rw [if_neg (Nat.not_le_of_lt hfixed), if_pos hfixed, hparam]
      rfl
    · rw [if_pos (Nat.le_of_not_lt hfixed), if_neg hfixed]
      rfl

end

/-! ### What is passed -/

/-- **What is passed** for the texts of all arguments: each of them by itself, or those of the fixed
parameters by themselves and then one slice of all others, in their order and counted from zero. -/
inductive PassesAll (sig : Signature) (own : List String) : Option GoType → List String → Prop
  | each : PassesAll sig own none own
  | nilSlice {elem : GoType} {zero : String} (fixed : own.length ≤ sig.params.length - 1)
      (h : (GoType.slice elem).zero = .ok zero) : PassesAll sig own (some elem) (own ++ [zero])
  | slice {elem : GoType} {fixed extra : List String} (h : own = fixed ++ extra)
      (length : fixed.length = sig.params.length - 1) (some_extra : extra ≠ []) :
      PassesAll sig own (some elem) (fixed ++
        [callText Support.newSlice [quote elem.text, braced ("[0]=" ++ commaSeparated extra)]])

/-- The texts that are passed are those of the arguments, with the packed ones in one slice. -/
theorem passedTexts_passesAll (sig : Signature) (packed : Option GoType) (own : List String) :
    PassesAll sig own packed (passedTexts sig packed own) := by
  unfold passedTexts
  cases packed with
  | none => exact .each
  | some elem =>
    dsimp only
    by_cases hextra : own.length ≤ sig.params.length - 1
    · rw [List.take_of_length_le hextra, List.drop_of_length_le hextra]
      exact .nilSlice hextra rfl
    · have hne : own.drop (sig.params.length - 1) ≠ [] := fun hnil =>
        hextra (List.drop_eq_nil_iff.mp hnil)
      rw [if_neg (by rwa [List.isEmpty_iff]), sliceText, zeroBased, if_neg (by rwa [List.isEmpty_iff])]
      refine .slice (List.take_append_drop _ _).symm ?_ hne
      rw [List.length_take, Nat.min_eq_left (Nat.le_of_not_le hextra)]

namespace PassesAll

variable {sig : Signature} {own texts : List String} {elem : GoType}

/-- Without packing, there is a text for each argument. -/
theorem length_each (h : PassesAll sig own none texts) : texts.length = own.length := by
  cases h
  rfl

/-- With packing, there is a text for each parameter, if there are arguments for the fixed ones. -/
theorem length_packed (h : PassesAll sig own (some elem) texts) (hparams : sig.params ≠ [])
    (hfixed : sig.params.length - 1 ≤ own.length) : texts.length = sig.params.length := by
  have hpos := List.length_pos_iff.mpr hparams
  cases h with
  | nilSlice hle =>
    rw [List.length_append, List.length_singleton]
    omega
  | slice _ hlength =>
    rw [List.length_append, List.length_singleton, hlength]
    omega

end PassesAll

/-- **How a call has packed its arguments.** From the state `s₀` on, in which the arguments `args'` are
known, they have come to `parts`. -/
structure Packed (lowering : Lowering) (env : Env) (sig : Signature) (args : List Expr) (ellipsis : Bool)
    (s : FunctionState) (texts : List String) (s' : FunctionState) (args' : List Expr)
    (s₀ : FunctionState) (packed : Option GoType) (parts : List PlacedPart) : Prop where
  effective : EffectiveArgs lowering env s args args' s₀
  packs : PacksInto sig ellipsis packed
  /-- Every argument is lowered once, in source order, and converted to the type for its place. -/
  lowered : ∃ last, LoweredInTurn env "_arg" {} s₀ (args'.zipIdx.map (passedText lowering sig packed))
    (parts.map PlacedPart.toPartRun) last s'
  /-- A temporary in the place of a text has been assigned it. -/
  pending : s'.pending = s₀.pending ++ (movedOccurrences "_arg" parts).map Prod.snd
  each : parts.length = args'.length
  passes : PassesAll sig (parts.map (PlacedPart.written "_arg")) packed texts
  unpacked_length : packed = none → texts.length = args'.length
  packed_length : packed ≠ none → sig.params.length - 1 ≤ args'.length →
    texts.length = sig.params.length

section

variable {n : Nat} {env : Env} {s s' : FunctionState} {e : Expr} {sig : Signature}
  {args : List Expr} {ellipsis : Bool} {texts : List String}

/-- **Packing loses nothing and doubles nothing.** A call passes the text of every effective argument
just once, in order and converted to the type for its place: by itself, or in the slice. -/
theorem arguments_packed
    (h : (arguments (within n) e sig args ellipsis).runIn env s = (.ok texts, s')) :
    ∃ args' s₀ packed parts,
      Packed (within n) env sig args ellipsis s texts s' args' s₀ packed parts := by
  -- The call evaluates its arguments, then packs them; each part of the theorem is about one of the
  -- two.
  obtain ⟨args', packed, s₀, last, settled, opened, hargs, hpacked, hturn, hseq, htexts⟩ :=
    arguments_sequenced h
  rw [hseq.texts_eq] at htexts
  subst htexts
  have hpasses := passedTexts_passesAll sig packed
    ((settled ++ opened.map PartRun.inline).map (PlacedPart.written "_arg"))
  have hlength : (settled ++ opened.map PartRun.inline).length = args'.length := by
    have hlength := hturn.length_eq
    rwa [List.length_map, List.length_map, List.length_zipIdx] at hlength
  simp only [funext (argumentText_eq (within n) sig packed)] at hturn
  have hpacks := packedElem_ok hpacked
  refine ⟨args', s₀, packed, settled ++ opened.map PartRun.inline, effectiveArgs_ok hargs, hpacks,
    ⟨last, hturn⟩, hseq.pending_eq, hlength, hpasses, fun hnone => ?_, fun hsome hfixed => ?_⟩
  · subst hnone
    rw [hpasses.length_each, List.length_map, hlength]
  · cases hpacks with
    | nothing => exact absurd rfl hsome
    | slice _ _ hlast =>
      refine hpasses.length_packed (fun hnil => ?_) (by rwa [List.length_map, hlength])
      rw [hnil] at hlast
      cases hlast

/-- A function of a number and any further numbers. -/
def ofOneOrMore : Signature :=
  { params := [.basic .int, .slice (.basic .int)], results := [], variadic := true }

/-- `f`, and what it is called with: `g()`, which has three results. -/
def spreadCall : Build (Expr × List Expr) := do
  let results : List GoType := [.basic .int, .basic .int, .basic .int]
  let g ← Build.func "g" { params := [], results }
  return (← Build.func "f" ofOneOrMore, [.call (← Build.node (.tuple results)) g [] false])

/-- The first element of the tuple is passed by itself, and the others in a slice. -/
theorem arguments_packed_spreadCall :
    ∃ texts s' args' s₀ packed parts,
      Packed (within 9) spreadCall.env ofOneOrMore (spreadCall.run {}).1.2 false {} texts s' args' s₀
          packed parts ∧
        texts = ["_tuple0[0]", "_gi_NewSlice(\"int\", \x7b[0]=_tuple0[1], _tuple0[2]\x7d)"] ∧
        s'.pending.map Statement.text = ["_tuple0 = g()"] := by
  have hok : ((arguments (within 9) (spreadCall.run {}).1.1 ofOneOrMore (spreadCall.run {}).1.2
      false).runIn spreadCall.env {}).1.isOk := by decide +kernel
  obtain ⟨texts, s', hrun⟩ := LowerM.exists_runIn_eq_ok hok
  obtain ⟨args', s₀, packed, parts, hpacked⟩ := arguments_packed hrun
  have htexts : ((arguments (within 9) (spreadCall.run {}).1.1 ofOneOrMore (spreadCall.run {}).1.2
      false).runIn spreadCall.env {}).1.toOption =
        some ["_tuple0[0]", "_gi_NewSlice(\"int\", \x7b[0]=_tuple0[1], _tuple0[2]\x7d)"] := by
    decide +kernel
  have hpending : ((arguments (within 9) (spreadCall.run {}).1.1 ofOneOrMore
      (spreadCall.run {}).1.2 false).runIn spreadCall.env {}).2.pending.map Statement.text =
        ["_tuple0 = g()"] := by
    decide +kernel
  rw [hrun] at htexts hpending
  exact ⟨texts, s', args', s₀, packed, parts, hpacked, Option.some.inj htexts, hpending⟩

end

end GoLua.Lower
