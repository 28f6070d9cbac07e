import GoLua.Proofs.Integer.Preserved

/-!
# Conversions from integers to floats

A conversion from an integer to a float adds the float zero to the operand, and Lua converts the
operand for that sum. What it converts is the cell with its sign. So the float is that of the integer
wherever the integer fits the signed cell, which all integers do but those of `uint64` from `2 ^ 63` on
(`toInt_cell_of_inRange`).

Floats are no values here, so it is not said what the sum comes to. `Converts` says which integer Lua
converts: the one that the text before the addition comes to.
-/

namespace GoLua

open Lower Template Lua

/-- What a cell holds with a sign, of an integer of a kind. -/
def Kind.withSign (k : Kind) (v : Int) : Int :=
  if k = .uint64 ∧ 0x8000000000000000 ≤ v then v - 0x10000000000000000 else v

namespace Lua

variable {k : Kind} {v : Int}

/-- The number that a cell holds as a signed one, of a kind with or without a sign. -/
theorem toInt_cell_of_inRange (h : k.InRange v) : (cell v).toInt = k.withSign v := by
  unfold Kind.withSign
  obtain ⟨hle, hlt⟩ := le_of_inRange h
  by_cases hk : k = .uint64
  · subst hk
    rw [toInt_cell_of_nonneg (nonneg_of_inRange h rfl) hlt]
    simp only [true_and]
    split <;> split <;> omega
  · rw [if_neg fun h => hk h.1]
    exact toInt_cell hle (lt_of_inRange h hk)

/-- With a sign a cell holds another integer just where one of `uint64` is too large for that. -/
theorem withSign_eq_self_iff (k : Kind) (v : Int) :
    k.withSign v = v ↔ (k = .uint64 → v < 0x8000000000000000) := by
  unfold Kind.withSign
  by_cases hk : k = .uint64
  · simp only [hk, true_and, forall_const]
    split <;> omega
  · simp [hk]

end Lua

/-- **The integer that is converted.** A text adds the float zero to an operand, and the operand comes to
a cell that holds an integer with a sign. -/
def Converts (globals : String → Value) (text : String) (n : Int) : Prop :=
  ∃ operand a c, text = operand ++ " + 0.0" ∧
    readOn (.want []) (operand ++ " +").toList = some (.want [.binary .add a]) ∧
    a.eval globals = .ok (.integer c) ∧ c.toInt = n

/-- Only one integer is converted. -/
theorem Converts.unique {globals : String → Value} {text : String} {m n : Int}
    (hm : Converts globals text m) (hn : Converts globals text n) : m = n := by
  obtain ⟨operand, a, c, rfl, hread, heval, rfl⟩ := hm
  obtain ⟨operand', a', c', htext, hread', heval', rfl⟩ := hn
  -- The text before the addition is the same, so it is read and evaluated in the same way.
  obtain rfl : operand = operand' := by
    have hlist := congrArg String.toList htext
    rw [String.toList_append, String.toList_append] at hlist
    exact String.toList_inj.mp (List.append_cancel_right hlist)
  obtain rfl : a = a' := by
    rw [hread] at hread'
    cases hread'
    rfl
  rw [heval] at heval'
  cases heval'
  rfl

section

variable {env : Env} {s s' : FunctionState} {self : Lowering} {e value : Expr} {k j : Kind}
  {source target : GoType} {text : String} {globals : String → Value} {a : Exp} {v : Int}
  {scope : List Object}

/-- An operand with zero added to it converts the number in its cell. -/
theorem converts_of_tight (ht : Tight text.toList a) (heval : a.eval globals = .ok (.ofInt v))
    (hv : k.InRange v) : Converts globals (text ++ " + 0.0") (k.withSign v) := by
  refine ⟨text, a, cell v, rfl, ?_, heval, toInt_cell_of_inRange hv⟩
  rw [String.toList_append]
  exact ht.readOn_operator .add trivial

/-- A conversion of an integer to another type that is a float writes the sum with zero. -/
theorem runIn_convertFrom_float (hdistinct : source.identical target = false)
    (hsource : source.basicKind? = some k) (hk : k.isSized) (htarget : target.basicKind? = some j)
    (hj : j.isFloat) (h : Puts self env .expression s e text s') :
    (convertFrom self e source target).runIn env s =
      (.ok (.operation (text ++ " + 0.0")), s') := by
  -- A float kind is no integer kind, so the rule of floats applies.
  have hinteger : j.isInteger = false := by
    revert hj
    cases j <;> decide
  have hrule : convertFrom self e source target = renderParen self "%e + 0.0" [e] := by
    rw [convertFrom_kind hdistinct hsource hk htarget, toKind, if_neg (by simp [hinteger]), if_pos hj,
      toFloatKind, hsource]
    exact if_pos (Bool.and_eq_true_iff.mp hk).1
  rw [hrule]
  exact runIn_renderParen_behind rfl h

/-- A call of a float type, with an integer expression in it. -/
theorem runIn_call_float {n : Node} {func : Expr} {ellipsis : Bool}
    (hscope : ∀ obj ∈ scope, obj.IsSpelled env.config) (hvalue : Integral env s scope value k)
    (hnode : env.Computes s n.id j) (hj : j.isFloat)
    (hfunc : (isTypeExpr func).runIn env s = (.ok true, s))
    (hdistinct : ∀ source ∈ env.type? s value.id, ∀ target ∈ env.type? s n.id,
      source.identical target = false) :
    ∃ text s', (lower (.call n func [value] ellipsis) none).runIn env s =
        (.ok (.operation text), s') ∧ s'.pending = s.pending ∧
      ∀ ⦃globals σ v⦄, Library globals → Stores env.config scope globals σ →
        value.integer env s σ = .ok v → Converts globals text (k.withSign v) := by
  obtain ⟨source, hsource, hsourceKind⟩ := exists_type_of_kind hvalue.kind
  obtain ⟨target, htarget, htargetKind⟩ :=
    exists_type_of_kind (e := .call n func [value] ellipsis) hnode.kind
  -- There are enough lowerings inside one another for the operand as well.
  obtain ⟨m, hm, hsize⟩ : ∃ m, nestingBound (Expr.call n func [value] ellipsis).size = m + 1 ∧
      value.size ≤ m := by
    refine ⟨_, rfl, ?_⟩
    simp only [Expr.size, argsSize]
    omega
  obtain ⟨text, ids, a, hput, ht, -, hmeans⟩ :=
    (hvalue.fills_within (hvalue.yields hscope) hsize).1 (n.id :: s.lowered)
  refine ⟨text ++ " + 0.0", s.withLowered ids, ?_, rfl, fun globals σ v hlibrary hstores hv => ?_⟩
  · rw [lower, hm]
    have hform := runIn_expression_form htarget hnode.unknown (within m) none
    refine (hform.trans (runIn_call_conversion (s := s.withLowered (n.id :: s.lowered))
      (runIn_isTypeExpr hfunc _) htarget hsource)).trans ?_
    exact runIn_convertFrom_float (hdistinct source hsource target htarget) hsourceKind hvalue.sized
      htargetKind hj hput
  · exact converts_of_tight ht (hmeans.eval_eq_ok hlibrary hstores hv) (hvalue.inRange hstores hv)

end

/-! ### Conversions -/

/-- The facts about a conversion of an integer to a float type. -/
structure Env.ConvertsToFloat (env : Env) (s : FunctionState) (value : Expr) (target : GoType)
    (k j : Kind) : Prop where
  sized : k.isSized
  source : ∃ type, env.type? s value.id = some type ∧ type.basicKind? = some k ∧
    type.identical target = false
  target : target.basicKind? = some j
  isFloat : j.isFloat

/-- **Integers as floats.** A conversion of an integer to a float type is written as the sum of the operand
and the float zero, be it a call of the type or not. In this sum the integer is converted that the cell
of the operand holds with a sign. For a call around an integer expression whose variables have names that
Lua can spell and values that the global names can hold beside the library, that is the integer of the
expression with the sign that its cell gives it. It is another integer just for `uint64` from `2 ^ 63`
on, and negative there. -/
theorem Lower.integers_to_floats {env : Env} {s : FunctionState} {value : Expr} {target : GoType}
    {k j : Kind} (h : env.ConvertsToFloat s value target k j) :
    (∀ (self : Lowering) (f : Fragment) (s' : FunctionState),
      (self value none).runIn env s = (.ok f, s') →
        (conversion self value target).runIn env s =
          (.ok (.operation (env.written s value f ++ " + 0.0")), s') ∧
        (∀ e func ellipsis, (isTypeExpr func).runIn env s = (.ok true, s) →
          env.type? s e.id = some target →
            (call self e func [value] ellipsis).runIn env s =
              (.ok (.operation (env.written s value f ++ " + 0.0")), s')) ∧
        ∀ globals a v, Tight (env.written s value f).toList a → a.eval globals = .ok (.ofInt v) →
          k.InRange v → Converts globals (env.written s value f ++ " + 0.0") (k.withSign v)) ∧
    (∀ scope n func ellipsis, (∀ obj ∈ scope, obj.IsSpelled env.config) →
      Integral env s scope value k → env.type? s n.id = some target →
      env.constant? s n.id = none → (isTypeExpr func).runIn env s = (.ok true, s) →
        ∃ text s', (lower (.call n func [value] ellipsis) none).runIn env s =
            (.ok (.operation text), s') ∧ s'.pending = s.pending ∧
          ∀ globals σ v, Library globals → Stores env.config scope globals σ →
            value.integer env s σ = .ok v → Converts globals text (k.withSign v)) ∧
    ∀ v, k.InRange v → (k.withSign v = v ↔ (k = .uint64 → v < 0x8000000000000000)) ∧
      (k.withSign v ≠ v → k.withSign v < 0 ∧ 0 ≤ v) := by
  obtain ⟨source, hsource, hkind, hdistinct⟩ := h.source
  have hput {self : Lowering} {f : Fragment} {s' : FunctionState}
      (hrun : (self value none).runIn env s = (.ok f, s')) :
      Puts self env .expression s value (env.written s value f) s' :=
    fun {_ _ _ _} => Puts.expression hrun
  refine ⟨fun self f s' hrun => ⟨?_, fun e func ellipsis hfunc htarget => ?_,
      fun globals a v ht heval hv => converts_of_tight ht heval hv⟩,
    fun scope n func ellipsis hscope hvalue htarget hunknown hfunc => ?_,
    fun v hv => ⟨withSign_eq_self_iff k v, fun hne => ?_⟩⟩
  -- The text, in both entry points, then what it converts.
  · refine (LowerM.runIn_bind_ok (runIn_typeOf_of_type? hsource) _).trans ?_
    exact runIn_convertFrom_float hdistinct hkind h.sized h.target h.isFloat (hput hrun)
  · rw [runIn_call_conversion hfunc htarget hsource]
    exact runIn_convertFrom_float hdistinct hkind h.sized h.target h.isFloat (hput hrun)
  -- A tree of integers: its meaning is kept up to the addition, so it converts its value.
  · have hnode : env.Computes s n.id j := ⟨Option.bind_eq_some_iff.mpr ⟨_, htarget, h.target⟩, hunknown⟩
    refine runIn_call_float hscope hvalue hnode h.isFloat hfunc fun source' hsource' target' htarget' => ?_
    obtain rfl : source = source' := Option.some.inj (hsource.symm.trans hsource')
    obtain rfl : target = target' := Option.some.inj (htarget.symm.trans htarget')
    exact hdistinct
  -- Only the largest kind without a sign has numbers that the cell takes for negative ones.
  · have hlt := (le_of_inRange hv).2
    unfold Kind.withSign at hne ⊢
    split
    · omega
    · next hkeeps => exact absurd (if_neg hkeeps) hne

/-- `float64(x)`, for an unsigned number that fills the cell -/
def floatOfX : Build Expr := do
  let x ← Build.var "x" (.basic .uint64)
  let func ← Build.typeExpr (.basic .float64)
  return .call (← Build.node (.basic .float64)) func [x] false

/-- The facts about `floatOfX`. -/
def floatOfXEnv : Env :=
  { facts := (floatOfX.run {}).2.facts }

/-- Seven is converted as it is. -/
theorem Lower.integers_to_floats_floatOfX :
    ∃ n func x, (floatOfX.run {}).1 = .call n func [x] false ∧
      (conversion (within 1) x (.basic .float64)).runIn floatOfXEnv {} =
        (.ok (.operation "x + 0.0"), {}) ∧
      Converts (holdingX 7) "x + 0.0" 7 ∧
      ∃ text s', (lower (.call n func [x] false) none).runIn floatOfXEnv {} =
          (.ok (.operation text), s') ∧ s'.pending = [] ∧
        Converts (holdingX 7) text 7 := by
  refine ⟨_, _, _, rfl, ?_⟩
  have hfacts : floatOfXEnv.ConvertsToFloat {} (.ident ⟨0, TreeBuilder.spanOf 0⟩ "x")
      (.basic .float64) .uint64 .float64 := ⟨rfl, ⟨_, rfl, rfl, rfl⟩, rfl, rfl⟩
  obtain ⟨hany, hcall, -⟩ := Lower.integers_to_floats hfacts
  obtain ⟨hconversion, -, hconverts⟩ := hany (within 1) (.atom "x") {} rfl
  have hx : Tight "x".toList (.name "x") := ⟨[], _, true, rfl, fun _ => rfl⟩
  refine ⟨hconversion, hconverts (holdingX 7) _ 7 hx rfl (by decide), ?_⟩
  have hreads : floatOfXEnv.Reads {} [.var "x" (.basic .uint64)] 0 "x" (.var "x" (.basic .uint64))
      .uint64 := ⟨rfl, rfl, rfl, by decide, rfl, by decide⟩
  have hscope : ∀ obj ∈ [Object.var "x" (.basic .uint64)], obj.IsSpelled floatOfXEnv.config := by
    intro obj hobj
    obtain rfl := List.mem_singleton.mp hobj
    exact ⟨rfl, by rintro package ⟨⟩⟩
  have hstores : Stores floatOfXEnv.config [.var "x" (.basic .uint64)] (holdingX 7) fun _ => 7 := by
    intro obj hobj
    obtain rfl := List.mem_singleton.mp hobj
    refine ⟨?_, rfl⟩
    rintro k ⟨⟩
    decide
  obtain ⟨text, s', hrun, hpending, hconverts⟩ := hcall _ ⟨2, TreeBuilder.spanOf 2⟩
    (.typeExpr ⟨1, TreeBuilder.spanOf 1⟩) false hscope (.var ⟨rfl, rfl⟩ rfl hreads) rfl rfl rfl
  exact ⟨text, s', hrun, hpending, hconverts _ _ 7 (library_withLibrary _) hstores (by decide +kernel)⟩

/-- `2 ^ 63` is in the range of its kind, but it is its negation that is converted. -/
theorem highestBit_negated :
    ((lower (floatOfX.run {}).1 none).runIn floatOfXEnv {}).1.toOption =
        some (.operation "x + 0.0") ∧
      Kind.uint64.InRange 0x8000000000000000 ∧
      (Exp.name "x").eval (holdingX (cell 0x8000000000000000)) =
        .ok (.ofInt 0x8000000000000000) ∧
      Converts (holdingX (cell 0x8000000000000000)) "x + 0.0" (-0x8000000000000000) ∧
      ¬ Converts (holdingX (cell 0x8000000000000000)) "x + 0.0" 0x8000000000000000 := by
  have hconverts : Converts (holdingX (cell 0x8000000000000000)) "x + 0.0" (-0x8000000000000000) :=
    ⟨"x", .name "x", _, rfl, rfl, rfl, by decide⟩
  refine ⟨by decide +kernel, by decide, rfl, hconverts, fun h => ?_⟩
  have heq := hconverts.unique h
  omega

end GoLua
