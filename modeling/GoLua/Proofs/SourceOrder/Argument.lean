import GoLua.Proofs.Run.Still
import GoLua.Proofs.SourceOrder

/-!
# Arguments in source order

The arguments of a call are the parts of a sequence, and their texts stand in their own order. So a
call passes them in source order (`arguments_passed`). The elements of a tuple that a call spreads are
arguments like any others: the tuple is kept in a temporary before the first of them is lowered.
-/

namespace GoLua.Lower

open Lua

/-- The text of an argument and its place. -/
def argumentText (self : Lowering) (sig : Signature) (packed : Option GoType) (arg : Expr × Nat) :
    LowerM String := do
  let type ← argType sig packed arg.1 arg.2
  return (← implicitCopy self arg.1 type).text

/-- What a call passes: the texts of the arguments, the last ones of them packed into a slice if it
packs any. -/
def passedTexts (sig : Signature) (packed : Option GoType) (texts : List String) : List String :=
  match packed with
  | none => texts
  | some elem =>
    let extra := texts.drop (sig.params.length - 1)
    texts.take (sig.params.length - 1) ++
      [if extra.isEmpty then nilSliceText elem else sliceText extra elem]

/-- The rule of arguments in three steps: which ones, lowered in sequence, packed at the end. -/
theorem arguments_eq (self : Lowering) (e : Expr) (sig : Signature) (args : List Expr)
    (ellipsis : Bool) :
    arguments self e sig args ellipsis = (do
      let args ← effectiveArgs self args
      let packed ← packedElem e sig ellipsis
      let parts ← inSequence "_arg" {} (args.zipIdx.map (argumentText self sig packed))
      return passedTexts sig packed parts.texts) := by
  unfold arguments passedTexts
  refine congrArg _ (funext fun args => congrArg _ (funext fun packed => congrArg _ (funext ?_)))
  intro parts
  cases packed <;> rfl

section

variable {n : Nat} {env : Env} {s s' : FunctionState} {e : Expr} {sig : Signature}
  {args : List Expr} {ellipsis : Bool} {texts : List String}

/-- How arguments are packed is looked up in the signature. -/
theorem still_packedElem (e : Expr) (sig : Signature) (ellipsis : Bool) :
    Still (packedElem e sig ellipsis) := by
  unfold packedElem
  split
  · split
    · exact .pure _
    · exact .fail _
  · exact .pure _

/-- Spreading a tuple mints names and leaves statements, and takes nothing back. -/
theorem grows_effectiveArgs (n : Nat) (args : List Expr) : Grows (effectiveArgs (within n) args) :=
  grows_of_built fun p => by
    have hfits := RunLaw.fits_of_forall ⟨within n, p, fun _ => True⟩ fun _ => trivial
    have hbuilt := Built.effectiveArgs (fun a (_ : a ∈ args) => hfits a) (k := pure)
      (Q := fun _ => True) fun _ _ _ _ => .pure trivial
    rwa [bind_pure] at hbuilt

theorem grows_argumentText (n : Nat) (sig : Signature) (packed : Option GoType)
    (arg : Expr × Nat) : Grows (argumentText (within n) sig packed arg) :=
  grows_of_built fun p => by
    have hfits := RunLaw.fits_of_forall ⟨within n, p, fun _ => True⟩ (fun _ => trivial) arg.1
    refine (Built.argType sig packed hfits.id arg.2).free fun type _ => ?_
    exact (Built.implicitCopy hfits type).map Fragment.text fun _ _ => trivial

/-- The arguments of a call are lowered in turn, and what comes of them is passed. -/
theorem arguments_sequenced
    (h : (arguments (within n) e sig args ellipsis).runIn env s = (.ok texts, s')) :
    ∃ args' packed s₀ last settled opened,
      (effectiveArgs (within n) args).runIn env s = (.ok args', s₀) ∧
        (packedElem e sig ellipsis).runIn env s₀ = (.ok packed, s₀) ∧
        LoweredInTurn env "_arg" {} s₀ (args'.zipIdx.map (argumentText (within n) sig packed))
          ((settled ++ opened.map PartRun.inline).map PlacedPart.toPartRun) last s' ∧
        Sequenced "_arg" s₀ s' settled opened last ∧ texts = passedTexts sig packed last.texts := by
  rw [arguments_eq] at h
  -- The arguments, the packing, and the run over them one after the other.
  obtain ⟨args', s₁, hargs, hcall⟩ := LowerM.runIn_bind_eq_ok h
  obtain ⟨packed, s₀, hpacked, hcall⟩ := LowerM.runIn_bind_eq_ok hcall
  obtain ⟨last, hrun, htexts⟩ := LowerM.runIn_map_eq_ok hcall
  obtain rfl := (still_packedElem e sig ellipsis).runIn_eq_ok hpacked
  have hgrows : ∀ m ∈ args'.zipIdx.map (argumentText (within n) sig packed), Grows m := by
    rw [List.forall_mem_map]
    exact fun arg _ => grows_argumentText n sig packed arg
  obtain ⟨runs, settled, opened, hturn, hseq, hruns⟩ :=
    (sequenced_empty s₀).inSequence hgrows hrun
  rw [List.map_nil, List.nil_append, List.nil_append, ← map_toPartRun_parts] at hruns
  exact ⟨args', packed, s₀, last, settled, opened, hargs, hpacked, hruns ▸ hturn, hseq, htexts.symm⟩

/-- **How a call has passed its arguments.** From the state `s₀` on, in which the arguments are
known, they have come to `parts`. -/
structure Passed (self : Lowering) (env : Env) (e : Expr) (sig : Signature) (args : List Expr)
    (ellipsis : Bool) (s : FunctionState) (texts : List String) (s' : FunctionState)
    (s₀ : FunctionState) (parts : List PlacedPart) : Prop where
  lowered : ∃ args' packed last,
    (effectiveArgs self args).runIn env s = (.ok args', s₀) ∧
    (packedElem e sig ellipsis).runIn env s₀ = (.ok packed, s₀) ∧
    LoweredInTurn env "_arg" {} s₀ (args'.zipIdx.map (argumentText self sig packed))
      (parts.map PlacedPart.toPartRun) last s' ∧
    texts = passedTexts sig packed (parts.map (PlacedPart.written "_arg"))
  /-- A tuple is kept before all else. -/
  spread : s.pending <+: s₀.pending
  /-- The statements are those of the arguments. -/
  pending : s'.pending = s₀.pending ++ (movedOccurrences "_arg" parts).map Prod.snd
  order : InSourceOrder "_arg" s₀.nextName s'.nextName parts (List.range parts.length)
    (parts.map (PlacedPart.written "_arg"))

/-- **Arguments are passed in source order.** Whatever the arguments leave: each text that is not
simple is evaluated once, and everything is evaluated in the order in which it was lowered. -/
theorem arguments_passed
    (h : (arguments (within n) e sig args ellipsis).runIn env s = (.ok texts, s')) :
    ∃ s₀ parts, Passed (within n) env e sig args ellipsis s texts s' s₀ parts := by
  obtain ⟨args', packed, s₀, last, settled, opened, hargs, hpacked, hturn, hseq, htexts⟩ :=
    arguments_sequenced h
  rw [hseq.texts_eq] at htexts
  refine ⟨s₀, settled ++ opened.map PartRun.inline, ⟨args', packed, last, hargs, hpacked, hturn,
    htexts⟩, (grows_effectiveArgs n args env s args' s₀ hargs).2, hseq.pending_eq, ?_⟩
  -- The place of a text is its own number.
  have hlength : (settled ++ opened.map PartRun.inline).length = last.texts.length := by
    rw [hseq.texts_eq, List.length_map]
  have hhint : "_arg".toList = '_' :: ['a', 'r', 'g'] := rfl
  rw [← hseq.texts_eq, hlength]
  exact hseq.inSourceOrder (isSimple_fresh hhint (by decide)) (.range _) (InPlaces.range_ascending _)

/-- A function of three numbers. -/
def ofThree : Signature :=
  { params := [.basic .int, .basic .int, .basic .int], results := [] }

/-- `f`, and what it is called with: `g()`, `h()` and `k()`, of which `h` may suspend. -/
def threeCalls : Build (Expr × List Expr) := do
  return (← Build.func "f" ofThree, [← Build.callNamed "g" (.basic .int) false,
    ← Build.callNamed "h" (.basic .int) true, ← Build.callNamed "k" (.basic .int) false])

/-- `g()` moves, in front of the call of `h`, and `k()` stays. -/
theorem arguments_passed_threeCalls :
    ∃ texts s' s₀ parts, Passed (within 9) threeCalls.env (threeCalls.run {}).1.1 ofThree
        (threeCalls.run {}).1.2 false {} texts s' s₀ parts ∧
      texts = ["_arg1", "_r0", "k()"] ∧
      s'.pending.map Statement.text = ["_arg1 = g()", "_r0 = h() --[[resume:0]]"] := by
  have hok : ((arguments (within 9) (threeCalls.run {}).1.1 ofThree (threeCalls.run {}).1.2
      false).runIn threeCalls.env {}).1.isOk := by decide +kernel
  obtain ⟨texts, s', hrun⟩ := LowerM.exists_runIn_eq_ok hok
  obtain ⟨s₀, parts, hpassed⟩ := arguments_passed hrun
  have htexts : ((arguments (within 9) (threeCalls.run {}).1.1 ofThree (threeCalls.run {}).1.2
      false).runIn threeCalls.env {}).1.toOption = some ["_arg1", "_r0", "k()"] := by
    decide +kernel
  have hpending : ((arguments (within 9) (threeCalls.run {}).1.1 ofThree (threeCalls.run {}).1.2
      false).runIn threeCalls.env {}).2.pending.map Statement.text =
        ["_arg1 = g()", "_r0 = h() --[[resume:0]]"] := by
    decide +kernel
  rw [hrun] at htexts hpending
  exact ⟨texts, s', s₀, parts, hpassed, Option.some.inj htexts, hpending⟩

end

end GoLua.Lower
