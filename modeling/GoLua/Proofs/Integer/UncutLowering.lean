import GoLua.Proofs.Integer.Preserved
import GoLua.Proofs.Integer.Uncut

/-!
# Lowering integers that are not cut

Emitted text for an expression of `int32` comes to its whole result in a cell (`Uncut.yields`), since
its rules are those of the kind that fills the cell. So the text has the low half of what the program
means, and all of it where the result is in range (`lower_int32_uncut`). Where a result is not in
range, they differ: `x + y` goes on above the greatest word, and Go starts over at the least
(`sumOfWords_leaves_range`).
-/

namespace GoLua

open Lower Lua

section

variable {env : Env} {s : FunctionState} {scope : List Object} {σ : Object → Int} {e : Expr}
  {k : Kind}

/-! ### Rules -/

/-- What may be written again has a value. -/
theorem Uncut.exists_uncut (h : Uncut env s scope e k)
    (hrepeatable : e.unparen.isIdent ∨ (env.constant? s e.id).isSome) (σ : Object → Int) :
    ∃ m, e.uncut env s σ = .ok m := by
  -- A value that is not known is repeatable only when it is a name or brackets around one: in every
  -- other case the two conditions contradict each other.
  have hunknown {id : NodeId} (h : env.Computes s id .int32) :
      ¬ (env.constant? s id).isSome = true := by
    rw [h.unknown]
    exact Bool.false_ne_true
  induction h with
  | kept h =>
    rw [h.uncut]
    exact h.exists_integer hrepeatable σ
  | constant _ hvalue => exact ⟨_, uncut_of_known hvalue⟩
  | var hnode hreads => exact ⟨_, uncut_ident hnode hreads⟩
  | paren hnode _ ih =>
    rw [uncut_paren hnode]
    exact ih (.inl (hrepeatable.resolve_right (hunknown hnode)))
  | qualified hnode | neg hnode | binary hnode | shift hnode | conversion hnode =>
    cases hrepeatable.resolve_right (hunknown hnode)

/-- Expressions of `int32` are faithful operands if what is computed for them is what is written. -/
theorem Uncut.fills {self : Lowering} (h : Uncut env s scope e k)
    (hyields : Yields env s scope (Lower.expression self e none) Value.ofInt
      fun σ => e.uncut env s σ) :
    Fills env s scope (Lower.expression self) .expression e (fun σ => e.uncut env s σ) ∧
      Fills env s scope (Lower.expression self) .folded e fun σ => e.uncut env s σ := by
  -- Either the value is computed when the program runs, or it is a constant of the kind's range.
  -- The two fill an operand for different reasons.
  have hknown : env.constant? s e.id = none ∨
      ∃ value, (env.constant? s e.id).bind Constant.toInt? = some value ∧ k.InRange value := by
    cases h with
    | kept h => exact h.known
    | constant _ hvalue hrange => exact .inr ⟨_, hvalue, hrange⟩
    | var hnode | qualified hnode | paren hnode | neg hnode | binary hnode | shift hnode
    | conversion hnode => exact .inl hnode.unknown
  rcases hknown with hunknown | ⟨value, hvalue, hrange⟩
  · exact hyields.fills hunknown
  · simp only [uncut_of_known hvalue]
    exact fills_constant h.kind h.sized hvalue hrange

/-- The lowering with a given fuel fills an operand as the whole one does: the two agree from the
size of the expression on. -/
theorem Uncut.fills_within (h : Uncut env s scope e k)
    (hyields : ∀ n, e.size ≤ n + 1 → Yields env s scope (Lower.expression (within n) e none)
      Value.ofInt fun σ => e.uncut env s σ) {n : Nat} (hn : e.size ≤ n) :
    Fills env s scope (within n) .expression e (fun σ => e.uncut env s σ) ∧
      Fills env s scope (within n) .folded e fun σ => e.uncut env s σ :=
  within_of_size
    (P := fun self => Fills env s scope self .expression e (fun σ => e.uncut env s σ) ∧
      Fills env s scope self .folded e fun σ => e.uncut env s σ)
    (fun m hm => h.fills (hyields m hm)) hn

section

variable {self : Lowering} {left right : Expr} {x y : (Object → Int) → Except Panic Int} {c : Kind}

/-- The rules of `int32` are those of the kind that fills the cell. -/
theorem yields_uncutArithmetic {op : BinaryOp} (hop : op ∈ uncutOps)
    (hx : StaysIn env scope .int64 x) (hy : StaysIn env scope .int64 y)
    (fl : Fills env s scope self .expression left x)
    (fr : Fills env s scope self .expression right y) :
    Yields env s scope (integerArithmetic self e op left right .int32) Value.ofInt
      fun σ => (exactOf op .int64 x y σ).map Kind.int64.wrap := by
  have hrule (hop : op ∈ arithmeticOps) :=
    yields_integerArithmetic (e := e) (k := .int64) rfl hx hy fl fr hop
  cases op
  case add | sub | mul | quo => exact hrule (by decide)
  all_goals exact absurd hop (by decide)

/-- A shift leaves its whole result in the cell, unless all of the kind is shifted out. -/
theorem yields_uncutShift (hleft : Uncut env s scope left .int32) (hright : Uncut env s scope right c)
    (fl : Fills env s scope self .expression left fun σ => left.uncut env s σ)
    (fr : Fills env s scope self .folded right fun σ => right.uncut env s σ) :
    Yields env s scope (integerArithmetic self e .shl left right .int32) Value.ofInt fun σ =>
      (exactOf .shl .int64 (fun σ => left.uncut env s σ) (fun σ => right.uncut env s σ) σ).map
        (leftInCell env s .shl right) := by
  obtain ⟨_, hy⟩ := hright.exists_staysIn
  refine yields_shiftLeft (fun hout => ?_) fun hin => ?_
  · obtain ⟨n, hn, -⟩ := (Option.any_eq_true ..).mp hout
    rw [leftInCell_shiftedOut hout]
    exact yields_shiftedOut fl (fun _ => uncut_of_known hn) hleft.exists_uncut
  · rw [leftInCell_shifted hin]
    exact (yields_shiftedLeft hleft.staysIn hy fl fr).cut (k := .int64) rfl

/-- A sign. -/
theorem yields_uncutNeg {operand : Expr} (hkind : env.kind? s operand.id = some .int32)
    (hunknown : env.constant? s operand.id = none)
    (h : Yields env s scope (self operand none) Value.ofInt x) :
    Yields env s scope (unary self e .neg operand) Value.ofInt fun σ =>
      (x σ >>= fun a => UnaryOp.neg.exact a).map Kind.int64.wrap := by
  obtain ⟨type, htype, hbasic⟩ := exists_type_of_kind hkind
  have hneg : Yields env s scope (renderParen self "-%e" [operand]) Value.ofInt fun σ =>
      x σ >>= fun a => UnaryOp.neg.exact a :=
    yields_signed (h.fills hunknown).1 (fun ids _ _ hput => runIn_neg hput)
      (fun ht hhead => tight_neg ht fun c hc => (hhead c hc).2 hunknown)
      fun n => congrArg (Except.ok ∘ Value.integer) cell_neg.symm
  -- The template renders the negation, and the kind asks for no cut behind it.
  refine (hneg.cut (k := .int64) rfl).of_runIn fun ids => ?_
  refine (LowerM.runIn_bind_ok (runIn_typeOf_withLowered htype ids) _).trans ?_
  simp only [hbasic]
  rfl

/-- A conversion leaves the integer as it is. -/
theorem yields_uncutConversion {func value : Expr} {ellipsis : Bool}
    (hkind : env.kind? s e.id = some .int32) (hfunc : (isTypeExpr func).runIn env s = (.ok true, s))
    (hvalue : Uncut env s scope value c)
    (h : Yields env s scope (self value none) Value.ofInt x) :
    Yields env s scope (call self e func [value] ellipsis) Value.ofInt
      fun σ => (x σ).map Kind.int64.wrap := by
  have hcell : Yields env s scope (self value none) Value.ofInt
      fun σ => (x σ).map Kind.int64.wrap := by
    refine (h.cut (k := .int64) rfl).of_runIn fun ids => ?_
    obtain ⟨f, ids', -, hrun, -⟩ := h ids
    rw [LowerM.runIn_bind_ok hrun, hrun]
    rfl
  -- Two conversions meet here: a word of the same kind is passed on as it is, and one of another
  -- kind is cut to the cell, which is what `hcell` says already.
  refine Yields.conversion hkind rfl hfunc hvalue.kind hvalue.sized (fun _ _ _ _ _ => hcell)
    fun source target hsource => ?_
  refine hcell.of_runIn fun ids => ?_
  obtain ⟨f, ids', -, hrun, -⟩ := h ids
  have hinteger : c.isInteger = true := (Bool.and_eq_true_iff.mp hvalue.sized).1
  unfold toIntegerKind
  rw [hsource]
  simp only [hinteger, if_true]
  rw [LowerM.runIn_bind_ok hrun, hrun, show needsCut .int32 = false from rfl]
  simp

end

/-- **Whole results.** Emitted text comes to what is computed in whole cells. -/
theorem Uncut.yields (hscope : ∀ obj ∈ scope, obj.IsSpelled env.config)
    (h : Uncut env s scope e k) (n : Nat) (hn : e.size ≤ n + 1) :
    Yields env s scope (Lower.expression (within n) e none) Value.ofInt
      fun σ => e.uncut env s σ := by
  induction h generalizing n with
  | kept h =>
    simp only [h.uncut]
    exact h.yields hscope n hn
  | constant hkind hvalue hrange =>
    simp only [uncut_of_known hvalue]
    exact yields_constant hkind rfl hvalue hrange
  | var hnode hreads =>
    simp only [uncut_ident hnode hreads]
    exact (yields_identifier hreads (hscope _ hreads.mem)).expression hnode.kind hnode.unknown
  | qualified hnode hresolved hreads =>
    simp only [uncut_qualified hnode hreads]
    exact (yields_selector hresolved hreads (hscope _ hreads.mem)).expression hnode.kind
      hnode.unknown
  | @paren _ inner hnode _ ih =>
    have hinner : inner.size ≤ n := by simpa [Expr.size] using hn
    simp only [uncut_paren hnode]
    exact (yields_within ih hinner).expression hnode.kind hnode.unknown
  | @neg _ operand hnode hoperand hunknown ih =>
    have hsize : operand.size ≤ n := by simpa [Expr.size] using hn
    simp only [uncut_unary hnode]
    exact (yields_uncutNeg hoperand.kind hunknown (yields_within ih hsize)).expression hnode.kind
      hnode.unknown
  | @binary _ op left right hnode hop hleft hright ihl ihr =>
    have hsizes : left.size ≤ n ∧ right.size ≤ n := by
      simp only [Expr.size] at hn
      omega
    simp only [uncut_binary hnode, leftInCell_of_mem hop]
    have fl := (hleft.fills_within ihl hsizes.1).1
    have fr := (hright.fills_within ihr hsizes.2).1
    have hrule := (yields_uncutArithmetic (e := .binary _ op left right) hop hleft.staysIn
      hright.staysIn fl fr).arithmetic hnode.kind rfl
    refine Yields.expression hnode.kind hnode.unknown ?_
    -- Which rule it is, is known only once the operator is.
    cases op <;> first
      | exact hrule
      | exact absurd hop (by decide)
  | @shift _ left right c hnode hleft hright ihl ihr =>
    have hsizes : left.size ≤ n ∧ right.size ≤ n := by
      simp only [Expr.size] at hn
      omega
    simp only [uncut_binary hnode]
    have fl := (hleft.fills_within ihl hsizes.1).1
    have fr := (hright.fills_within ihr hsizes.2).2
    exact ((yields_uncutShift (e := .binary _ .shl left right) hleft hright fl fr).arithmetic
      hnode.kind rfl).expression hnode.kind hnode.unknown
  | @conversion _ func value ellipsis c hnode hfunc hvalue ih =>
    have hsize : value.size ≤ n := by
      simp only [Expr.size, argsSize] at hn
      omega
    simp only [uncut_conversion hnode]
    exact (yields_uncutConversion (e := .call _ func [value] ellipsis) hnode.kind hfunc hvalue
      (yields_within ih hsize)).expression hnode.kind hnode.unknown

/-- **Integers of 32 bits with a sign.** An expression of `int32` is lowered to a text that comes to
its whole result in a cell. The low half of it is the integer of Go where whole cells do not matter,
and all of it is if it is in range. As for the other kinds, the names of the variables are ones that Lua
can spell, and their values ones that the global names can hold beside the library. -/
theorem lower_int32_uncut (hscope : ∀ obj ∈ scope, obj.IsSpelled env.config)
    (h : Uncut env s scope e .int32) :
    Preserves env s scope e Value.ofInt (fun σ => e.uncut env s σ) ∧
      ∀ globals σ, Stores env.config scope globals σ → e.Settled env s σ →
        (e.uncut env s σ).map Kind.int32.wrap = e.integer env s σ ∧
          (e.FitsKind env s σ → e.uncut env s σ = e.integer env s σ) := by
  -- The fuel `lower` starts with is enough for the tree, so the statement about `within` applies.
  have hsize : e.size ≤ nestingBound e.size := by
    unfold nestingBound
    omega
  have hyields : Yields env s scope (lower e none) Value.ofInt fun σ => e.uncut env s σ :=
    yields_within (h.yields hscope) hsize
  refine ⟨hyields.preserves, fun globals σ hstores hsettled => ?_⟩
  have hlow := h.map_wrap_uncut hstores hsettled
  refine ⟨hlow, fun hfits => ?_⟩
  rw [← hlow, map_wrap_of_inRange fun m hm => hfits _ h.kind m hm]

end

/-! ### Sums of two words -/

/-- `x + y`, for words with a sign -/
def sumOfWords : Build Expr := do
  let word := GoType.basic .int32
  let x ← Build.var "x" word
  let y ← Build.var "y" word
  return .binary (← Build.node word) .add x y

/-- `(x + y) / 2`, for words with a sign -/
def meanOfWords : Build Expr := do
  let word := GoType.basic .int32
  let sum ← sumOfWords
  let two ← Build.int 2 .int32
  return .binary (← Build.node word) .quo sum two

/-- The facts about `sumOfWords` and `meanOfWords`. -/
def wordsEnv : Env :=
  { facts := (meanOfWords.run {}).2.facts }

/-- The variables of `sumOfWords`. -/
def wordsInScope : List Object :=
  [.var "x" (.basic .int32), .var "y" (.basic .int32)]

/-- Given values of the variables. -/
def wordsOf (x y : Int) (obj : Object) : Int :=
  if obj.name = "x" then x else y

/-- The global names with given values in them. -/
def wordGlobals (x y : Int) : String → Value :=
  withLibrary fun name => if name = "x" then .ofInt x else .ofInt y

/-- A store of two words holds what the scope says about them. -/
theorem stores_wordsOf {x y : Int} (hx : Kind.int32.InRange x) (hy : Kind.int32.InRange y) :
    Stores wordsEnv.config wordsInScope (wordGlobals x y) (wordsOf x y) := by
  intro obj hobj
  rcases List.mem_pair.mp hobj with rfl | rfl
  · refine ⟨?_, rfl⟩
    rintro k ⟨⟩
    exact hx
  · refine ⟨?_, rfl⟩
    rintro k ⟨⟩
    exact hy

/-- The sum of two words is left uncut as a whole: its operands are names. -/
theorem uncut_sumOfWords :
    Uncut wordsEnv {} wordsInScope (sumOfWords.run {}).1 .int32 := by
  have hreadx : wordsEnv.Reads {} wordsInScope 0 "x" (.var "x" (.basic .int32)) .int32 :=
    ⟨rfl, rfl, rfl, by decide, rfl, by decide⟩
  have hready : wordsEnv.Reads {} wordsInScope 1 "y" (.var "y" (.basic .int32)) .int32 :=
    ⟨rfl, rfl, rfl, by decide, rfl, by decide⟩
  exact .binary (n := ⟨2, TreeBuilder.spanOf 2⟩) ⟨rfl, rfl⟩ (show .add ∈ uncutOps by decide)
    (.var (n := ⟨0, TreeBuilder.spanOf 0⟩) ⟨rfl, rfl⟩ hreadx)
    (.var (n := ⟨1, TreeBuilder.spanOf 1⟩) ⟨rfl, rfl⟩ hready)

/-- So is the mean, a division of that sum. -/
theorem uncut_meanOfWords :
    Uncut wordsEnv {} wordsInScope (meanOfWords.run {}).1 .int32 :=
  .binary (n := ⟨4, TreeBuilder.spanOf 4⟩) ⟨rfl, rfl⟩ (show .quo ∈ uncutOps by decide)
    uncut_sumOfWords
    (.constant (e := .basicLit ⟨3, TreeBuilder.spanOf 3⟩ "Int(2)") (n := 2) rfl rfl (by decide))

/-- The sum is in range and the mean is that of Go. -/
theorem lower_int32_uncut_meanOfWords :
    ∃ f s' a, (lower (meanOfWords.run {}).1 none).runIn wordsEnv {} = (.ok f, s') ∧
      s'.pending = [] ∧ read f.text = some a ∧
      a.eval (wordGlobals (-17) 4) = .ok (.ofInt (-6)) ∧
      (meanOfWords.run {}).1.integer wordsEnv {} (wordsOf (-17) 4) = .ok (-6) := by
  have hscope : ∀ obj ∈ wordsInScope, obj.IsSpelled wordsEnv.config := by
    intro obj hobj
    rcases List.mem_pair.mp hobj with rfl | rfl
    · exact ⟨rfl, by rintro package ⟨⟩⟩
    · exact ⟨rfl, by rintro package ⟨⟩⟩
  have hstores : Stores wordsEnv.config wordsInScope (wordGlobals (-17) 4) (wordsOf (-17) 4) :=
    stores_wordsOf (by decide) (by decide)
  obtain ⟨⟨f, s', a, hrun, hpending, hread, hmeans⟩, hgo⟩ :=
    lower_int32_uncut hscope uncut_meanOfWords
  have hvalue : (meanOfWords.run {}).1.uncut wordsEnv {} (wordsOf (-17) 4) = .ok (-6) := by
    decide +kernel
  -- The operands of the quotient are minus thirteen and two.
  have hsum : (sumOfWords.run {}).1.FitsKind wordsEnv {} (wordsOf (-17) 4) := by
    rintro k ⟨⟩ n hn
    have hthirteen : (sumOfWords.run {}).1.uncut wordsEnv {} (wordsOf (-17) 4) = .ok (-13) := by
      decide +kernel
    obtain rfl : -13 = n := Except.ok.inj (hthirteen.symm.trans hn)
    decide
  have htwo : Expr.FitsKind wordsEnv {} (wordsOf (-17) 4)
      (.basicLit ⟨3, TreeBuilder.spanOf 3⟩ "Int(2)") := by
    rintro k ⟨⟩ n hn
    obtain rfl : 2 = n := Except.ok.inj hn
    decide
  have hsettled : (meanOfWords.run {}).1.Settled wordsEnv {} (wordsOf (-17) 4) := by
    refine fun _ => ⟨fun _ => ⟨fun _ => trivial, fun _ => trivial, ?_, ?_⟩, fun _ => trivial,
      fun _ => ⟨hsum, htwo⟩, ?_⟩ <;> rintro ⟨⟩
  refine ⟨f, s', a, hrun, hpending, hread,
    hmeans.eval_eq_ok (library_withLibrary _) hstores hvalue, ?_⟩
  have hlow := (hgo _ _ hstores hsettled).1
  rw [hvalue] at hlow
  exact hlow.symm

/-- The sum of the greatest word and one leaves the range, where Go starts over at the least. -/
theorem sumOfWords_leaves_range :
    Uncut wordsEnv {} wordsInScope (sumOfWords.run {}).1 .int32 ∧
      Stores wordsEnv.config wordsInScope (wordGlobals 0x7FFFFFFF 1) (wordsOf 0x7FFFFFFF 1) ∧
      (∃ s' a, (lower (sumOfWords.run {}).1 none).runIn wordsEnv {} =
          (.ok (.operation "x + y"), s') ∧ read "x + y" = some a ∧
        a.eval (wordGlobals 0x7FFFFFFF 1) = .ok (.ofInt 0x80000000)) ∧
      (sumOfWords.run {}).1.integer wordsEnv {} (wordsOf 0x7FFFFFFF 1) = .ok (-0x80000000) := by
  refine ⟨uncut_sumOfWords, stores_wordsOf (by decide) (by decide), ?_, by decide +kernel⟩
  exact ⟨_, .binary .add (.name "x") (.name "y"), rfl, rfl, rfl⟩

end GoLua
