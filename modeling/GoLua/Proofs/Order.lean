import GoLua.Proofs.Lua.Numeral
import GoLua.Proofs.ResumeSteps
import GoLua.Proofs.Run.Operator
import GoLua.Proofs.Run.Pending
import GoLua.Tree.Builder

/-!
# Operands and the statements before them

Pending statements run before the text that they were left for. So an operand whose text stays
inline runs behind all that later operands leave, and the resume steps of calls follow the order in
which operands are lowered. This module says where both agree with the order from left to right and
where they do not.

* In a sequence, such as the arguments of a call, they agree. What stays inline before a part that
  left statements is simple (`inSequence_simple_before`), and the moves come between what there was
  and those statements (`Parts.Adds.moves_between`).
* A template moves nothing. The left operand of an operator stays inline, whatever the right one
  leaves (`runIn_plainOperator_inline`).
* Two rules lower their second operand first: an equality that makes an interface value of its right
  operand (`runIn_interfaceEquality_right_first`), and an access to a map
  (`runIn_mapElement_key_first`). There the second operand gets the smaller steps.
-/

namespace GoLua

/-! ### Trees with calls -/

/-- A call of a function without parameters, which may suspend. -/
def Build.callNamed (name : String) (result : GoType) (suspends : Bool) : Build Expr := do
  let func ← Build.func name { params := [], results := [result] }
  let e := Expr.call (← Build.node result) func [] false
  if suspends then modify fun b => b.mark e
  return e

/-- `g()` and `h()`, of which the second one may suspend. -/
def twoCalls : Build (Expr × Expr) := do
  return (← Build.callNamed "g" (.basic .int) false, ← Build.callNamed "h" (.basic .int) true)

/-- `g() + h()`, where `h` may suspend. -/
def sumOfCalls : Build Expr := do
  let (left, right) ← twoCalls
  return .binary (← Build.node (.basic .int)) .add left right

/-- `f()` and `g()`, both of which may suspend; the first one gives an interface value. -/
def valueAndNumber : Build (Expr × Expr) := do
  return (← Build.callNamed "f" (.interface []) true, ← Build.callNamed "g" (.basic .int) true)

/-- `f() == g()` -/
def equalityOfCalls : Build Expr := do
  let (left, right) ← valueAndNumber
  return .binary (← Build.node (.basic .bool)) .eql left right

/-- What is read of a tree that was built. -/
def Build.env {α : Type} (build : Build α) : Env :=
  { facts := (build.run {}).2.facts, marks := (build.run {}).2.marks }

namespace Lower

open Lua Template

section

variable {env : Env} {s s₁ s' : FunctionState} {hint : String} {parts parts' : Parts}
  {m : LowerM String}

/-! ### Temporaries -/

/-- A fresh name whose hint starts with an underscore is simple. -/
theorem isSimple_fresh {cs : List Char} (hhint : hint.toList = '_' :: cs) (hcs : cs.all isNameChar)
    (n : Nat) : isSimple (hint ++ toString n) := by
  have hdigits : (toString n).toList.all isNameChar := all_toString (by decide) n
  generalize toString n = digits at hdigits ⊢
  have htext : (hint ++ digits).toList = '_' :: (cs ++ digits.toList) := by
    rw [String.toList_append, hhint, List.cons_append]
  -- No reserved word starts with an underscore.
  have hkeyword : isKeyword (hint ++ digits) = false := by
    have hall : ∀ word ∈ keywords, word.toList.head? ≠ some '_' := by decide
    refine Bool.eq_false_iff.mpr fun h => hall _ (List.contains_iff_mem.mp h) ?_
    rw [htext, List.head?_cons]
  have hname : isName (hint ++ digits) := by
    simp only [isName, htext, List.all_append, hcs, hdigits, hkeyword]
    rfl
  simp [isSimple, hname]

/-- What is moved is named by a temporary, and the moves are the last statements. -/
theorem moveToTemporaries_ok (hhint : ∀ n : Nat, isSimple (hint ++ toString n))
    {texts moved : List String} (h : (moveToTemporaries hint texts).runIn env s = (.ok moved, s')) :
    moved.length = texts.length ∧ (∀ text ∈ moved, isSimple text) ∧
      ∃ moves, s'.pending = s.pending ++ moves := by
  -- By induction on the texts: a simple one stays, any other goes into a temporary of its own.
  induction texts generalizing s moved with
  | nil =>
    obtain ⟨rfl, rfl⟩ := LowerM.runIn_pure_eq_ok h
    exact ⟨rfl, by simp, [], (List.append_nil _).symm⟩
  | cons text texts ih =>
    unfold moveToTemporaries at h
    split at h
    · next hsimple =>
      obtain ⟨rest, hrest, rfl⟩ := LowerM.runIn_map_eq_ok h
      obtain ⟨hlength, hall, hmoves⟩ := ih hrest
      exact ⟨congrArg Nat.succ hlength, List.forall_mem_cons.mpr ⟨hsimple, hall⟩, hmoves⟩
    · rw [LowerM.runIn_bind_ok (runIn_keepInTemporary env s hint text)] at h
      obtain ⟨rest, hrest, rfl⟩ := LowerM.runIn_map_eq_ok h
      obtain ⟨hlength, hall, moves, hmoves⟩ := ih hrest
      refine ⟨congrArg Nat.succ hlength, List.forall_mem_cons.mpr ⟨hhint s.nextName, hall⟩,
        .assign (s.newTemporary hint).1 text :: moves, ?_⟩
      rw [hmoves]
      exact List.append_assoc _ _ _

/-! ### Sequences -/

/-- The texts that need no temporary any more are simple. -/
structure Parts.Tidy (parts : Parts) : Prop where
  moved_le : parts.moved ≤ parts.texts.length
  simple : ∀ text ∈ parts.texts.take parts.moved, isSimple text

theorem Parts.tidy_empty : Parts.Tidy {} :=
  ⟨Nat.le_refl 0, fun _ h => by cases h⟩

/-- How a part is added to those before it. -/
structure Parts.Adds (parts parts' : Parts) (s s₁ s' : FunctionState) : Prop where
  tidy : parts'.Tidy
  length : parts'.texts.length = parts.texts.length + 1
  moved_le : parts.moved ≤ parts'.moved
  /-- A text that needs no temporary stays as it is. -/
  stays : parts'.texts.take parts.moved = parts.texts.take parts.moved
  /-- All texts before a part that left statements have been moved. -/
  moved : s₁.pending.length ≠ s.pending.length → parts'.moved = parts.texts.length
  /-- Their moves come before the statements of the part. -/
  moves_between : ∀ left, s₁.pending = s.pending ++ left →
    ∃ moves, s'.pending = s.pending ++ moves ++ left

/-- Moving makes every text simple, and only adds statements. -/
theorem move_ok (hhint : ∀ n : Nat, isSimple (hint ++ toString n)) (ht : parts.Tidy)
    (h : (parts.move hint).runIn env s = (.ok parts', s')) :
    parts'.texts.length = parts.texts.length ∧ parts'.moved = parts.texts.length ∧
      (∀ text ∈ parts'.texts, isSimple text) ∧
      parts'.texts.take parts.moved = parts.texts.take parts.moved ∧
      ∃ moves, s'.pending = s.pending ++ moves := by
  obtain ⟨texts, hrun, rfl⟩ := LowerM.runIn_map_eq_ok h
  obtain ⟨hlength, hall, hmoves⟩ := moveToTemporaries_ok hhint hrun
  have htaken : (parts.texts.take parts.moved).length = parts.moved :=
    List.length_take_of_le ht.moved_le
  refine ⟨?_, rfl, fun text htext => ?_, ?_, hmoves⟩
  · rw [List.length_append, htaken, hlength, Parts.open, List.length_drop,
      Nat.add_sub_cancel' ht.moved_le]
  · exact (List.mem_append.mp htext).elim (ht.simple text) (hall text)
  · rw [List.take_append_of_le_length (Nat.le_of_eq htaken.symm), List.take_take, Nat.min_self]

/-- A further part is lowered, and if it leaves statements, the texts before it are moved in front
of them. -/
theorem add_ok (hhint : ∀ n : Nat, isSimple (hint ++ toString n)) (ht : parts.Tidy)
    (h : (parts.add hint m).runIn env s = (.ok parts', s')) :
    ∃ text s₁, m.runIn env s = (.ok text, s₁) ∧ parts.Adds parts' s s₁ s' := by
  rcases hm : m.runIn env s with ⟨err | text, s₁⟩
  · rw [runIn_add_error hm] at h
    cases h
  refine ⟨text, s₁, rfl, ?_⟩
  by_cases hquiet : s₁.pending.length = s.pending.length
  · -- The part left nothing, and the open texts stay open.
    rw [runIn_add_quiet hm hquiet] at h
    obtain ⟨hparts, rfl⟩ := Prod.mk.inj h
    obtain rfl := Except.ok.inj hparts
    have htake : (parts.texts ++ [text]).take parts.moved = parts.texts.take parts.moved :=
      List.take_append_of_le_length ht.moved_le
    refine ⟨⟨?_, ?_⟩, List.length_append, Nat.le_refl _, htake, fun hne => absurd hquiet hne,
      fun left hleft => ⟨[], by rw [hleft, List.append_nil]⟩⟩
    · exact Nat.le_trans ht.moved_le (List.sublist_append_left _ _).length_le
    · simpa only [htake] using ht.simple
  · -- What the part left is cut off while the open texts are moved, and comes behind the moves.
    obtain ⟨tidied, s₂, hmove⟩ := exists_runIn_move env (s₁.splitAt s.pending.length).2 hint parts
    rw [runIn_add_moved hm hquiet hmove] at h
    obtain ⟨hparts, rfl⟩ := Prod.mk.inj h
    obtain rfl := Except.ok.inj hparts
    obtain ⟨hlength, hmoved, hall, hstays, moves, hmoves⟩ := move_ok hhint ht hmove
    have htake {k : Nat} (hk : k ≤ parts.texts.length) :
        (tidied.texts ++ [text]).take k = tidied.texts.take k :=
      List.take_append_of_le_length (hlength ▸ hk)
    refine ⟨⟨?_, fun t ht => ?_⟩, ?_, hmoved ▸ ht.moved_le, (htake ht.moved_le).trans hstays,
      fun _ => hmoved, fun left hleft => ⟨moves, ?_⟩⟩
    · rw [hmoved, ← hlength]
      exact (List.sublist_append_left _ _).length_le
    · rw [hmoved, htake (Nat.le_refl _)] at ht
      exact hall t (List.mem_of_mem_take ht)
    · rw [List.length_append, hlength, List.length_singleton]
    · rw [s₁.splitAt_of_append hleft] at hmoves ⊢
      exact congrArg (· ++ left) hmoves

/-- Later parts leave alone what needs no temporary any more. -/
theorem inSequence_stays (hhint : ∀ n : Nat, isSimple (hint ++ toString n)) (ht : parts.Tidy)
    {lowers : List (LowerM String)}
    (h : (inSequence hint parts lowers).runIn env s = (.ok parts', s')) :
    parts'.texts.take parts.moved = parts.texts.take parts.moved := by
  induction lowers generalizing parts s with
  | nil =>
    obtain ⟨rfl, -⟩ := LowerM.runIn_pure_eq_ok h
    rfl
  | cons lower lowers ih =>
    obtain ⟨added, s₁, hadd, hrest⟩ := LowerM.runIn_bind_eq_ok h
    obtain ⟨_, _, -, hadds⟩ := add_ok hhint ht hadd
    have hlater := congrArg (List.take parts.moved) (ih hadds.tidy hrest)
    rw [List.take_take, List.take_take, Nat.min_eq_left hadds.moved_le] at hlater
    exact hlater.trans hadds.stays

/-- **Parts in sequence.** Where lowering a part has left statements, every text before it is simple
in the end: nothing that could be affected by these statements, or that has effects itself, stays
behind them. -/
theorem inSequence_simple_before {cs : List Char} (hhint : hint.toList = '_' :: cs)
    (hcs : cs.all isNameChar) (ht : parts.Tidy) (before after : List (LowerM String))
    (h : (inSequence hint parts (before ++ m :: after)).runIn env s = (.ok parts', s')) :
    ∃ parts₁ s₁ text s₂, (inSequence hint parts before).runIn env s = (.ok parts₁, s₁) ∧
      m.runIn env s₁ = (.ok text, s₂) ∧
      (s₂.pending.length ≠ s₁.pending.length →
        ∀ t ∈ parts'.texts.take (parts.texts.length + before.length), isSimple t) := by
  have hfresh := isSimple_fresh hhint hcs
  -- By induction on the parts before; that they are tidy is the invariant.
  induction before generalizing parts s with
  | nil =>
    obtain ⟨added, s₁, hadd, hrest⟩ := LowerM.runIn_bind_eq_ok h
    obtain ⟨text, s₂, hm, hadds⟩ := add_ok hfresh ht hadd
    refine ⟨parts, s, text, s₂, rfl, hm, fun hloud => ?_⟩
    rw [List.length_nil, Nat.add_zero, ← hadds.moved hloud,
      inSequence_stays hfresh hadds.tidy hrest]
    exact hadds.tidy.simple
  | cons first before ih =>
    obtain ⟨added, s₁, hadd, hrest⟩ := LowerM.runIn_bind_eq_ok h
    obtain ⟨_, _, -, hadds⟩ := add_ok hfresh ht hadd
    obtain ⟨parts₁, s₂, text, s₃, hbefore, hm, hsimple⟩ := ih hadds.tidy hrest
    refine ⟨parts₁, s₂, text, s₃, ?_, hm, fun hloud => ?_⟩
    · exact (LowerM.runIn_bind_ok hadd _).trans hbefore
    · rw [List.length_cons, Nat.add_comm before.length, ← Nat.add_assoc, ← hadds.length]
      exact hsimple hloud

/-- The text of an expression, as a part of a sequence. -/
def partOf (e : Expr) : LowerM String :=
  Fragment.text <$> lower e none

/-- Two calls in sequence, of which the second one is left as a statement. -/
theorem inSequence_simple_before_twoCalls :
    ∃ parts' s' s₁ text s₂,
      (inSequence "_arg" {} [partOf (twoCalls.run {}).1.1, partOf (twoCalls.run {}).1.2]).runIn
          twoCalls.env {} = (.ok parts', s') ∧
        (partOf (twoCalls.run {}).1.2).runIn twoCalls.env s₁ = (.ok text, s₂) ∧
        s₂.pending.length ≠ s₁.pending.length ∧ ∀ t ∈ parts'.texts.take 1, isSimple t := by
  have hok : ((inSequence "_arg" {} [partOf (twoCalls.run {}).1.1,
      partOf (twoCalls.run {}).1.2]).runIn twoCalls.env {}).1.isOk := by decide +kernel
  obtain ⟨parts', s', hrun⟩ := LowerM.exists_runIn_eq_ok hok
  have hhint : "_arg".toList = '_' :: ['a', 'r', 'g'] := rfl
  obtain ⟨parts₁, s₁, text, s₂, hbefore, hm, hsimple⟩ := inSequence_simple_before hhint (by decide)
    Parts.tidy_empty [partOf (twoCalls.run {}).1.1] [] hrun
  obtain rfl := congrArg Prod.snd hbefore
  obtain rfl := congrArg Prod.snd hm
  exact ⟨parts', s', _, text, _, hrun, hm, by decide +kernel, hsimple (by decide +kernel)⟩

end

section

variable {self : Lowering} {env : Env} {s s₁ s' : FunctionState} {left right base key : Expr}
  {f g : Fragment}

/-! ### Templates -/

/-- The texts of both operands stay inline: what the right one has left runs before the left one. -/
theorem runIn_plainOperator_inline (hleft : (self left none).runIn env s = (.ok f, s₁))
    (hright : (self right none).runIn env s₁ = (.ok g, s')) (op : BinaryOp) :
    (plainOperator self op left right).runIn env s =
      (.ok (.operation (env.written s left f ++ (" " ++ op.luaToken ++ " ") ++
        env.written s₁ right g)), s') :=
  runIn_plainOperator (Puts.expression hleft) (Puts.expression hright) op

/-- The call of `g` has effects, and stays behind that of `h`. -/
theorem sumOfCalls_inline :
    ((lower (sumOfCalls.run {}).1 none).runIn sumOfCalls.env {}).1.toOption =
        some (.operation "g() + _r0") ∧
      ((lower (sumOfCalls.run {}).1 none).runIn sumOfCalls.env {}).2.pending.map Statement.text =
        ["_r0 = h() --[[resume:0]]"] ∧
      isSimple "g()" = false := by
  decide +kernel

/-! ### Second operands first -/

/-- The right operand becomes an interface value before the left operand is lowered. -/
theorem runIn_interfaceEquality_right_first {leftType rightType : GoType}
    (hinterface : rightType.isInterface = false)
    (hright : (implicit self right leftType).runIn env s = (.ok g, s₁))
    (hleft : (self left none).runIn env s₁ = (.ok f, s')) :
    (interfaceEquality self left right leftType rightType).runIn env s =
      (.ok (.atom (Support.interfaceIsEqual ++ "(" ++ env.written s₁ left f ++
        (", " ++ g.operand ++ ")"))), s') := by
  rw [interfaceEquality, if_pos (by rw [hinterface]; rfl), LowerM.runIn_bind_ok hright]
  exact runIn_renderAs_one [.expr left, .lowered g] [.literal "__interfaceIsEqual(".toList]
    [.literal ", ".toList, .placeholder [] 1 .expression, .literal [')']] (i := 0) rfl (by decide)
    rfl (fixed_literal _) (Puts.expression hleft)
    ⟨[", ", g.operand, ")"], by simp [String.join], fun _ => rfl⟩ false

/-- The key is lowered before the map. -/
theorem runIn_mapElement_key_first {e : Expr} {keyType elem type : GoType} {zero : String}
    (hzero : elem.zero = .ok zero) (hkey : (mapKey self key keyType).runIn env s = (.ok g, s₁))
    (htype : env.type? s₁ e.id = some type)
    (hbase : (self base none).runIn env s₁ = (.ok f, s')) :
    (mapElement self e base key keyType elem).runIn env s =
      (.ok (.atom (env.written s₁ base f ++ ("('" ++ (if type.isTuple then "getok" else "get") ++
        "', " ++ g.operand ++ ", " ++ zero ++ ")"))), s') := by
  -- The zero value and the type are found without a change, so what is left is the run of the
  -- pattern.
  have hzeroFor : (zeroFor e elem).runIn env s₁ = (.ok zero, s₁) := by
    simp only [zeroFor, GoType.zeroAt, hzero]
    rfl
  have hfound : (typeOf e).runIn env s₁ = (.ok type, s₁) := runIn_typeOf_of_type? htype
  rw [mapElement, LowerM.runIn_bind_ok hkey, LowerM.runIn_bind_ok hzeroFor,
    LowerM.runIn_bind_ok hfound]
  -- Both patterns end alike; only the method in front of the operands differs.
  have hrest (pattern : String) (start : List Char) : Fixed self env pattern
      (withNames [.expr base, .lowered g, .text zero] [])
      [.literal start, .placeholder ['2'] 1 .expression, .literal [',', ' '],
        .placeholder ['3'] 2 .text, .literal [')']]
      (String.ofList start ++ g.operand ++ ", " ++ zero ++ ")") :=
    ⟨[String.ofList start, g.operand, ", ", zero, ")"], by simp [String.join], fun _ => rfl⟩
  split
  · refine (runIn_renderAs_one [.expr base, .lowered g, .text zero] [] _ (i := 0) rfl (by decide)
      rfl fixed_nil (Puts.expression hbase) (hrest _ "('getok', ".toList) false).trans ?_
    rw [String.empty_append]
    rfl
  · refine (runIn_renderAs_one [.expr base, .lowered g, .text zero] [] _ (i := 0) rfl (by decide)
      rfl fixed_nil (Puts.expression hbase) (hrest _ "('get', ".toList) false).trans ?_
    rw [String.empty_append]
    rfl

/-- **The right operand suspends first.** Where the right operand becomes an interface value, all
that it leaves comes before what the left operand leaves, and all its steps are smaller. -/
theorem interfaceEquality_suspends_right_first {n : Nat} {leftType rightType : GoType}
    (hinterface : rightType.isInterface = false)
    (hright : (implicit (within n) right leftType).runIn env s = (.ok g, s₁))
    (hleft : (within n left none).runIn env s₁ = (.ok f, s')) :
    ∃ h ofRight ofLeft,
      (interfaceEquality (within n) left right leftType rightType).runIn env s = (.ok h, s') ∧
        s₁.pending = s.pending ++ ofRight ∧ s'.pending = s₁.pending ++ ofLeft ∧
        ∀ i ∈ stepsOf ofRight, ∀ j ∈ stepsOf ofLeft, i < j := by
  have hr := Stepped.of_built (Built.implicit (RunLaw.fits_of_forall _ (fun _ => trivial) right)
    leftType) hright
  have hl := Stepped.of_built (Built.lower (RunLaw.fits_of_forall _ (fun _ => trivial) left) none)
    hleft
  obtain ⟨ofRight, ofLeft, hbefore, hafter, hlt⟩ := hr.steps_lt hl
  exact ⟨_, ofRight, ofLeft, runIn_interfaceEquality_right_first hinterface hright hleft, hbefore,
    hafter, hlt⟩

/-- The comparison of an interface value with a number, where both are results of calls that may
suspend. -/
theorem interfaceEquality_suspends_right_first_valueAndNumber :
    ∃ h, ∃ s₁ s' : FunctionState, ∃ ofRight ofLeft,
      (interfaceEquality (within 9) (valueAndNumber.run {}).1.1 (valueAndNumber.run {}).1.2
          (.interface []) (.basic .int)).runIn valueAndNumber.env {} = (.ok h, s') ∧
        s₁.pending = FunctionState.pending {} ++ ofRight ∧ s'.pending = s₁.pending ++ ofLeft ∧
        ∀ i ∈ stepsOf ofRight, ∀ j ∈ stepsOf ofLeft, i < j := by
  have hrightOk : ((implicit (within 9) (valueAndNumber.run {}).1.2 (.interface [])).runIn
      valueAndNumber.env {}).1.isOk := by decide +kernel
  obtain ⟨g, s₁, hright⟩ := LowerM.exists_runIn_eq_ok hrightOk
  have hleftOk : ((within 9 (valueAndNumber.run {}).1.1 none).runIn
      valueAndNumber.env s₁).1.isOk := by
    obtain rfl := congrArg Prod.snd hright
    decide +kernel
  obtain ⟨f, s', hleft⟩ := LowerM.exists_runIn_eq_ok hleftOk
  have hinterface : (GoType.basic .int).isInterface = false := rfl
  obtain ⟨h, ofRight, ofLeft, hrest⟩ :=
    interfaceEquality_suspends_right_first hinterface hright hleft
  exact ⟨h, s₁, s', ofRight, ofLeft, hrest⟩

/-- The call on the right is resumed at step 0. -/
theorem equalityOfCalls_right_first :
    ((lower (equalityOfCalls.run {}).1 none).runIn equalityOfCalls.env {}).1.toOption =
        some (.atom "__interfaceIsEqual(_r1, _r0)") ∧
      ((lower (equalityOfCalls.run {}).1 none).runIn equalityOfCalls.env {}).2.pending.map
          Statement.text =
        ["_r0 = g() --[[resume:0]]", "_r1 = f() --[[resume:1]]"] := by
  decide +kernel

end

end Lower

end GoLua
