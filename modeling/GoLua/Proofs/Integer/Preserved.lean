import GoLua.Proofs.Integer.Rules
import GoLua.Tree.Builder

/-!
# Integers are preserved

Emitted text does with cells what the program does with integers. By induction on a tree of integers,
each rule is faithful because its operands are (`Integral.yields`), and orderings are faithful because
their operands are (`Ordered.yields`). Nothing is left to run before the text.
-/

namespace GoLua

open Lower Lua

section

variable {env : Env} {s : FunctionState} {scope : List Object} {e : Expr} {k : Kind}

/-- What is known of lowering an expression is known of lowering it as a part. -/
theorem within_of_size {P : Lowering → Prop}
    (h : ∀ n, e.size ≤ n + 1 → P (Lower.expression (within n))) {n : Nat} (hn : e.size ≤ n) :
    P (within n) := by
  cases n with
  | zero => exact absurd hn (Nat.not_le.mpr e.size_pos)
  | succ n => exact h n hn

/-- What is lowered faithfully is a faithful part. -/
theorem yields_within {α : Type} {toLua : α → Value} {outcome : (Object → Int) → Except Panic α}
    (h : ∀ n, e.size ≤ n + 1 →
      Yields env s scope (Lower.expression (within n) e none) toLua outcome)
    {n : Nat} (hn : e.size ≤ n) : Yields env s scope (within n e none) toLua outcome :=
  within_of_size (P := fun self => Yields env s scope (self e none) toLua outcome) h hn

/-- Integer expressions are faithful operands, also next to constants. -/
theorem Integral.fills_within (h : Integral env s scope e k)
    (hyields : ∀ n, e.size ≤ n + 1 → Yields env s scope (Lower.expression (within n) e none)
      Value.ofInt fun σ => e.integer env s σ) {n : Nat} (hn : e.size ≤ n) :
    Fills env s scope (within n) .expression e (fun σ => e.integer env s σ) ∧
      Fills env s scope (within n) .folded e fun σ => e.integer env s σ :=
  within_of_size
    (P := fun self => Fills env s scope self .expression e (fun σ => e.integer env s σ) ∧
      Fills env s scope self .folded e fun σ => e.integer env s σ)
    (fun m hm => h.fills (hyields m hm)) hn

/-- **Integer expressions** are lowered faithfully, as long as there are enough lowerings inside one
another for all of the tree. -/
theorem Integral.yields (hscope : ∀ obj ∈ scope, obj.IsSpelled env.config)
    (h : Integral env s scope e k) (n : Nat) (hn : e.size ≤ n + 1) :
    Yields env s scope (Lower.expression (within n) e none) Value.ofInt
      fun σ => e.integer env s σ := by
  induction h generalizing n with
  | constant hkind hkept hvalue hrange =>
    simp only [integer_of_known hvalue]
    exact yields_constant hkind (Kind.isSized_of_isKept hkept) hvalue hrange
  | var hnode _ hreads =>
    simp only [integer_ident hnode hreads]
    exact (yields_identifier hreads (hscope _ hreads.mem)).expression hnode.kind hnode.unknown
  | qualified hnode _ hresolved hreads =>
    simp only [integer_qualified hnode hreads]
    exact (yields_selector hresolved hreads (hscope _ hreads.mem)).expression hnode.kind
      hnode.unknown
  | @paren _ inner _ hnode _ ih =>
    have hinner : inner.size ≤ n := by simpa [Expr.size] using hn
    simp only [integer_paren hnode]
    exact (yields_within ih hinner).expression hnode.kind hnode.unknown
  | @unary _ _ operand _ hnode hop hoperand hunknown ih =>
    have hsize : operand.size ≤ n := by simpa [Expr.size] using hn
    simp only [integer_unary hnode]
    exact (yields_unary hop hoperand hunknown (yields_within ih hsize)).expression hnode.kind
      hnode.unknown
  | @binary _ op left right k hnode hop hleft hright ihl ihr =>
    have hsizes : left.size ≤ n ∧ right.size ≤ n := by
      simp only [Expr.size] at hn
      omega
    simp only [integer_binary hnode]
    have fl := (hleft.fills_within ihl hsizes.1).1
    have fr := (hright.fills_within ihr hsizes.2).1
    have hrule := (yields_integerArithmetic (e := .binary _ op left right) hleft.kept hleft.staysIn
      hright.staysIn fl fr hop).arithmetic hnode.kind hleft.sized
    refine Yields.expression hnode.kind hnode.unknown ?_
    -- Which rule it is, is known only once the operator is.
    cases op <;> first
      | exact hrule
      | exact absurd hop (by decide)
  | @shift _ op left right k c hnode hop hleft hright ihl ihr =>
    have hsizes : left.size ≤ n ∧ right.size ≤ n := by
      simp only [Expr.size] at hn
      omega
    simp only [integer_binary hnode]
    have fl := (hleft.fills_within ihl hsizes.1).1
    have fr := (hright.fills_within ihr hsizes.2).2
    have hrule := (yields_shift (e := .binary _ op left right) hleft hright fl fr
      hop).arithmetic hnode.kind hleft.sized
    refine Yields.expression hnode.kind hnode.unknown ?_
    -- Which rule it is, is known only once the operator is.
    cases op <;> first
      | exact hrule
      | exact absurd hop (by decide)
  | @conversion _ func value ellipsis _ _ hnode hkept hfunc hvalue hidentical ih =>
    have hsize : value.size ≤ n := by
      simp only [Expr.size, argsSize] at hn
      omega
    simp only [integer_conversion hnode]
    exact (yields_conversion (e := .call _ func [value] ellipsis) hnode.kind hkept hfunc hvalue
      hidentical (yields_within ih hsize)).expression hnode.kind hnode.unknown

/-- A truth value that is known. -/
theorem yields_truth {self : Lowering} {b : Bool} (hkind : env.kind? s e.id = some k)
    (htruth : k.isTruth) (hvalue : (env.constant? s e.id).bind Constant.toBool? = some b) :
    Yields env s scope (Lower.expression self e none) Value.truth fun σ => e.truth env s σ := by
  intro ids
  -- A known truth value is written as the word for it.
  obtain ⟨c, hc, htoBool⟩ := Option.bind_eq_some_iff.mp hvalue
  have hview : c.inKind k none = some (some (.atom (truthWord b))) := by
    rw [Constant.inKind, if_pos htruth, htoBool]
    rfl
  have hdenotes : (Fragment.atom (truthWord b)).Denotes (.truth b) := by
    cases b
    · exact .atom ⟨[], _, false, rfl, fun _ => rfl⟩ (by rintro c ⟨⟩; decide)
    · exact .atom ⟨[], _, false, rfl, fun _ => rfl⟩ (by rintro c ⟨⟩; decide)
  refine ⟨_, ids, _, runIn_expression_known hkind hc hview ids, hdenotes, fun globals σ _ _ => ?_⟩
  change Agrees Value.truth (e.truth env s σ) _
  rw [truth_of_known hvalue]
  rfl

/-- **Orderings** are lowered faithfully. -/
theorem Ordered.yields (hscope : ∀ obj ∈ scope, obj.IsSpelled env.config)
    (h : Ordered env s scope e) (n : Nat) (hn : e.size ≤ n + 1) :
    Yields env s scope (Lower.expression (within n) e none) Value.truth
      fun σ => e.truth env s σ := by
  -- By how the truth value is made: known, in brackets, or a comparison of two integers.
  induction h generalizing n with
  | constant hkind htruth hvalue => exact yields_truth hkind htruth hvalue
  | @paren _ inner _ hnode _ ih =>
    have hinner : inner.size ≤ n := by simpa [Expr.size] using hn
    simp only [truth_paren hnode]
    exact (yields_within ih hinner).expression hnode.kind hnode.unknown
  -- Each side may be written as an operand, since it is lowered at a smaller size.
  | @compare _ op left right k _ hnode hop hleft hright =>
    have hsizes : left.size ≤ n ∧ right.size ≤ n := by
      simp only [Expr.size] at hn
      omega
    simp only [truth_compare hnode]
    have fl := (hleft.fills_within (hleft.yields hscope) hsizes.1).1
    have fr := (hright.fills_within (hright.yields hscope) hsizes.2).1
    refine Yields.expression hnode.kind hnode.unknown ?_
    cases op
    case lss | leq | gtr | geq => exact yields_ordering hleft hright fl fr rfl hop
    all_goals exact absurd hop (by decide)

/-! ### Whole expressions -/

variable (env s scope e) in
/-- Lowering an expression succeeds and leaves nothing to run before it, and its text is read as an
expression that means an outcome. -/
def Preserves {α : Type} (toLua : α → Value) (outcome : (Object → Int) → Except Panic α) : Prop :=
  ∃ f s' a, (lower e none).runIn env s = (.ok f, s') ∧ s'.pending = s.pending ∧
    read f.text = some a ∧ Means env scope toLua a outcome

/-- What yields its value in any state of the variables preserves it. -/
theorem Yields.preserves {α : Type} {toLua : α → Value} {outcome : (Object → Int) → Except Panic α}
    (h : Yields env s scope (lower e none) toLua outcome) :
    Preserves env s scope e toLua outcome := by
  obtain ⟨f, ids, a, hrun, hf, hmeans⟩ := h s.lowered
  exact ⟨f, s.withLowered ids, a, hrun, rfl, hf.whole.read, hmeans⟩

/-- **Integers are preserved.** An integer expression of a kind is lowered to a text that comes to the
cell of its integer, and an ordering to one that comes to its truth value, whatever the values of the
variables are. The names of the variables have to be ones that Lua can spell, and the values to be ones
that the global names can hold beside the library: two variables with one emitted name have one value,
and none is where a function of the library or the table `math` is. -/
theorem lower_preserves_integers (hscope : ∀ obj ∈ scope, obj.IsSpelled env.config) :
    (∀ k, Integral env s scope e k →
      Preserves env s scope e Value.ofInt fun σ => e.integer env s σ) ∧
    (Ordered env s scope e → Preserves env s scope e Value.truth fun σ => e.truth env s σ) := by
  -- The limit of nesting covers the tree.
  have hsize : e.size ≤ nestingBound e.size := by
    unfold nestingBound
    omega
  constructor
  · intro k h
    have hyields : Yields env s scope (lower e none) Value.ofInt fun σ => e.integer env s σ :=
      yields_within (h.yields hscope) hsize
    exact hyields.preserves
  · intro h
    have hyields : Yields env s scope (lower e none) Value.truth fun σ => e.truth env s σ :=
      yields_within (h.yields hscope) hsize
    exact hyields.preserves

end

/-! ### An ordering of bytes -/

/-- `x*y + 250 < y << 3`, for bytes -/
def scaledBytes : Build Expr := do
  let byte := GoType.basic .uint8
  let x ← Build.var "x" byte
  let y ← Build.var "y" byte
  let product := Expr.binary (← Build.node byte) .mul x y
  let offset ← Build.int 250 .uint8
  let sum := Expr.binary (← Build.node byte) .add product offset
  let count ← Build.int 3 .uint
  let shifted := Expr.binary (← Build.node byte) .shl y count
  return .binary (← Build.node (.basic .bool)) .lss sum shifted

/-- The facts about `scaledBytes`. -/
def scaledBytesEnv : Env :=
  { facts := (scaledBytes.run {}).2.facts }

/-- The variables of `scaledBytes`. -/
def bytesInScope : List Object :=
  [.var "x" (.basic .uint8), .var "y" (.basic .uint8)]

/-- Two bytes whose product is beyond a byte. -/
def twoBytes (obj : Object) : Int :=
  if obj.name = "x" then 17 else 16

/-- The global names with `twoBytes` in them. -/
def twoBytesGlobals : String → Value :=
  withLibrary fun name => if name = "x" then .integer 17 else .integer 16

/-- The two variables store what they are said to store. -/
theorem stores_twoBytes : Stores scaledBytesEnv.config bytesInScope twoBytesGlobals twoBytes := by
  intro obj hobj
  rcases List.mem_pair.mp hobj with rfl | rfl
  · refine ⟨?_, rfl⟩
    rintro k ⟨⟩
    decide
  · refine ⟨?_, rfl⟩
    rintro k ⟨⟩
    decide

/-- The product and the sum are cut, so the ordering is that of `10` and `128`. -/
theorem lower_preserves_integers_scaledBytes :
    ∃ node left right, (scaledBytes.run {}).1 = .binary node .lss left right ∧
      (∃ f s' a, (lower left none).runIn scaledBytesEnv {} = (.ok f, s') ∧ s'.pending = [] ∧
        read f.text = some a ∧ a.eval twoBytesGlobals = .ok (.integer 10)) ∧
      ∃ f s' a, (lower (scaledBytes.run {}).1 none).runIn scaledBytesEnv {} = (.ok f, s') ∧
        s'.pending = [] ∧ read f.text = some a ∧
        a.eval twoBytesGlobals = .ok (.truth true) := by
  have hscope : ∀ obj ∈ bytesInScope, obj.IsSpelled scaledBytesEnv.config := by
    intro obj hobj
    rcases List.mem_pair.mp hobj with rfl | rfl
    · exact ⟨rfl, by rintro package ⟨⟩⟩
    · exact ⟨rfl, by rintro package ⟨⟩⟩
  have hreadx : scaledBytesEnv.Reads {} bytesInScope 0 "x" (.var "x" (.basic .uint8)) .uint8 :=
    ⟨rfl, rfl, rfl, by decide, rfl, by decide⟩
  have hready : scaledBytesEnv.Reads {} bytesInScope 1 "y" (.var "y" (.basic .uint8)) .uint8 :=
    ⟨rfl, rfl, rfl, by decide, rfl, by decide⟩
  have hx : Integral scaledBytesEnv {} bytesInScope (.ident ⟨0, TreeBuilder.spanOf 0⟩ "x") .uint8 :=
    .var ⟨rfl, rfl⟩ rfl hreadx
  have hy : Integral scaledBytesEnv {} bytesInScope (.ident ⟨1, TreeBuilder.spanOf 1⟩ "y") .uint8 :=
    .var ⟨rfl, rfl⟩ rfl hready
  have hsum : Integral scaledBytesEnv {} bytesInScope (.binary ⟨4, TreeBuilder.spanOf 4⟩ .add
      (.binary ⟨2, TreeBuilder.spanOf 2⟩ .mul _ _)
      (.basicLit ⟨3, TreeBuilder.spanOf 3⟩ "Int(250)")) .uint8 :=
    .binary ⟨rfl, rfl⟩ (by decide) (.binary ⟨rfl, rfl⟩ (by decide) hx hy)
      (.constant (n := 250) rfl rfl rfl (by decide))
  have hshifted : Integral scaledBytesEnv {} bytesInScope (.binary ⟨6, TreeBuilder.spanOf 6⟩ .shl _
      (.basicLit ⟨5, TreeBuilder.spanOf 5⟩ "Int(3)")) .uint8 :=
    .shift ⟨rfl, rfl⟩ (by decide) hy (.constant (k := .uint) (n := 3) rfl rfl rfl (by decide))
  have hordered : Ordered scaledBytesEnv {} bytesInScope (scaledBytes.run {}).1 :=
    .compare (n := ⟨7, TreeBuilder.spanOf 7⟩) (c := .bool) ⟨rfl, rfl⟩
      (show .lss ∈ orderingOps by decide) hsum hshifted
  refine ⟨_, _, _, rfl, ?_, ?_⟩
  · obtain ⟨f, s', a, hrun, hpending, hread, hmeans⟩ :=
      (lower_preserves_integers hscope).1 .uint8 hsum
    exact ⟨f, s', a, hrun, hpending, hread,
      hmeans.eval_eq_ok (library_withLibrary _) stores_twoBytes (v := 10) (by decide +kernel)⟩
  · obtain ⟨f, s', a, hrun, hpending, hread, hmeans⟩ :=
      (lower_preserves_integers hscope).2 hordered
    exact ⟨f, s', a, hrun, hpending, hread,
      hmeans.eval_eq_ok (library_withLibrary _) stores_twoBytes (v := true) (by decide +kernel)⟩

/-! ### Names that get in the way -/

/-- `math < y`, for unsigned numbers that fill the cell -/
def mathBelow : Build Expr := do
  let math ← Build.var "math" (.basic .uint64)
  let y ← Build.var "y" (.basic .uint64)
  return .binary (← Build.node (.basic .bool)) .lss math y

/-- `end - end_` -/
def betweenEnds : Build Expr := do
  let left ← Build.var "end" (.basic .int)
  let right ← Build.var "end_" (.basic .int)
  return .binary (← Build.node (.basic .int)) .sub left right

/-- `-é` -/
def accented : Build Expr := do
  let operand ← Build.var "é" (.basic .int)
  return .unary (← Build.node (.basic .int)) .neg operand

/-- The facts about a tree. -/
def factsOf (tree : Build Expr) : Env :=
  { facts := (tree.run {}).2.facts }

/-- **Names matter.** All three are expressions on integers. A variable called like the table of Lua's
least integer is looked into as if it were that table, which no integer is. A variable that has the name
that a reserved word is given is taken for the other: their difference comes to zero, whatever they are.
And a name with an accent is no name of Lua. -/
theorem names_get_in_the_way :
    (Ordered (factsOf mathBelow) {} [.var "math" (.basic .uint64), .var "y" (.basic .uint64)]
        (mathBelow.run {}).1 ∧
      ∃ f s' a, (lower (mathBelow.run {}).1 none).runIn (factsOf mathBelow) {} = (.ok f, s') ∧
        f.text = "(math ~ math.mininteger) < (y ~ math.mininteger)" ∧ read f.text = some a ∧
        ∀ globals n, globals "math" = .integer n → a.eval globals = .error .wrongType) ∧
    (Integral (factsOf betweenEnds) {} [.var "end" (.basic .int), .var "end_" (.basic .int)]
        (betweenEnds.run {}).1 .int ∧
      (betweenEnds.run {}).1.integer (factsOf betweenEnds) {} (fun obj =>
        if obj.name = "end" then 1 else 0) = .ok 1 ∧
      ∃ f s' a, (lower (betweenEnds.run {}).1 none).runIn (factsOf betweenEnds) {} = (.ok f, s') ∧
        f.text = "end_ - end_" ∧ read f.text = some a ∧
        ∀ globals n, globals "end_" = .integer n → a.eval globals = .ok (.ofInt 0)) ∧
    (Integral (factsOf accented) {} [.var "é" (.basic .int)] (accented.run {}).1 .int ∧
      ∃ f s', (lower (accented.run {}).1 none).runIn (factsOf accented) {} = (.ok f, s') ∧
        f.text = "-é" ∧ read f.text = none) := by
  refine ⟨⟨?_, ?_⟩, ⟨?_, by decide +kernel, ?_⟩, ?_, ?_⟩
  · exact .compare (c := .bool) ⟨rfl, rfl⟩ (show .lss ∈ orderingOps by decide)
      (.var ⟨rfl, rfl⟩ rfl ⟨rfl, rfl, rfl, by decide, rfl, by decide⟩)
      (.var ⟨rfl, rfl⟩ rfl ⟨rfl, rfl, rfl, by decide, rfl, by decide⟩)
  · refine ⟨_, _, .binary .lt (.binary .bitXor (.name "math") (.field (.name "math") "mininteger"))
      (.binary .bitXor (.name "y") (.field (.name "math") "mininteger")), rfl, rfl, rfl,
      fun globals n hmath => ?_⟩
    simp only [Exp.eval, hmath]
    rfl
  · exact .binary ⟨rfl, rfl⟩ (by decide)
      (.var ⟨rfl, rfl⟩ rfl ⟨rfl, rfl, rfl, by decide, rfl, by decide⟩)
      (.var ⟨rfl, rfl⟩ rfl ⟨rfl, rfl, rfl, by decide, rfl, by decide⟩)
  · refine ⟨_, _, .binary .sub (.name "end_") (.name "end_"), rfl, rfl, rfl, fun globals n hend => ?_⟩
    simp only [Exp.eval, hend]
    exact congrArg (fun n => Except.ok (Value.integer n)) (BitVec.sub_self n)
  · exact .unary ⟨rfl, rfl⟩ (by decide)
      (.var ⟨rfl, rfl⟩ rfl ⟨rfl, rfl, rfl, by decide, rfl, by decide⟩) rfl
  · exact ⟨_, _, rfl, rfl, rfl⟩

end GoLua
