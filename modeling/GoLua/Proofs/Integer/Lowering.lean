import GoLua.Proofs.Integer.Text
import GoLua.Proofs.Run.Expression
import GoLua.Proofs.Run.Operator

/-!
# Lowering integer expressions

What each rule of integers makes of its operands: which fragment it writes and what the fragment
means. All of it is said of computations (`Yields`) and of operands of templates (`Fills`), given the
same of the operands, so that the rules compose. A computation that yields a meaning records nodes and
changes nothing else of the state; in particular it leaves no statement.
-/

namespace GoLua

open Lower Template Lua

/-- The same state with other nodes recorded as lowered. -/
def FunctionState.withLowered (s : FunctionState) (ids : List NodeId) : FunctionState :=
  { s with lowered := ids }

section

variable (env : Env) (s : FunctionState) (scope : List Object) {α : Type}

/-- An expression of Lua comes to what an outcome of Go is, given the values of variables. -/
def Means (toLua : α → Value) (a : Exp) (outcome : (Object → Int) → Except Panic α) : Prop :=
  ∀ ⦃globals : String → Value⦄ ⦃σ : Object → Int⦄, Library globals →
    Stores env.config scope globals σ → Agrees toLua (outcome σ) (a.eval globals)

variable {env scope} in
/-- Where Go has a value, so does Lua. -/
theorem Means.eval_eq_ok {toLua : α → Value} {a : Exp} {outcome : (Object → Int) → Except Panic α}
    (h : Means env scope toLua a outcome) {globals : String → Value} {σ : Object → Int}
    (hlibrary : Library globals) (hstores : Stores env.config scope globals σ) {v : α}
    (hv : outcome σ = .ok v) : a.eval globals = .ok (toLua v) := by
  have hagrees := h hlibrary hstores
  rw [hv] at hagrees
  exact hagrees

/-- **Faithful computations.** A computation succeeds, only records nodes, and its fragment means an
outcome. -/
def Yields (m : LowerM Fragment) (toLua : α → Value)
    (outcome : (Object → Int) → Except Panic α) : Prop :=
  ∀ ids, ∃ f ids' a, m.runIn env (s.withLowered ids) = (.ok f, s.withLowered ids') ∧
    f.Denotes a ∧ Means env scope toLua a outcome

/-- **Faithful operands.** An operand of a template is written, which only records nodes, and its text
means an outcome. -/
def Fills (self : Lowering) (tag : Tag) (e : Expr) (x : (Object → Int) → Except Panic Int) : Prop :=
  ∀ ids, ∃ text ids' a, Puts self env tag (s.withLowered ids) e text (s.withLowered ids') ∧
    Tight text.toList a ∧
    (∀ c ∈ text.toList.head?, c ≠ '=' ∧ (env.constant? s e.id = none → c ≠ '-')) ∧
    Means env scope Value.ofInt a x

/-- Whatever integer an outcome is, it is in the range of a kind. -/
def StaysIn (k : Kind) (x : (Object → Int) → Except Panic Int) : Prop :=
  ∀ ⦃globals : String → Value⦄ ⦃σ : Object → Int⦄, Stores env.config scope globals σ →
    ∀ ⦃n : Int⦄, x σ = .ok n → k.InRange n

end

section

variable {env : Env} {s : FunctionState} {scope : List Object} {self : Lowering} {e left right : Expr}
  {n : Node} {k c : Kind} {α : Type} {toLua : α → Value}
  {outcome : (Object → Int) → Except Panic α} {x : (Object → Int) → Except Panic Int}

/-! ### Ranges -/

/-- The value of an integer expression is in the range of its kind. -/
theorem Integral.staysIn (h : Integral env s scope e k) :
    StaysIn env scope k fun σ => e.integer env s σ :=
  fun _ _ hstores _ hn => h.inRange hstores hn

/-- An integer expression is of a kind with a width. -/
theorem Integral.sized (h : Integral env s scope e k) : k.isSized :=
  Kind.isSized_of_isKept h.kept

/-! ### Expressions -/

/-- A kind is recorded with a type that has it. -/
theorem exists_type_of_kind (h : env.kind? s e.id = some k) :
    ∃ type, env.type? s e.id = some type ∧ type.basicKind? = some k :=
  Option.bind_eq_some_iff.mp h

/-- Facts do not depend on what is recorded. -/
theorem runIn_typeOf_withLowered {type : GoType} (h : env.type? s e.id = some type)
    (ids : List NodeId) :
    (typeOf e).runIn env (s.withLowered ids) = (.ok type, s.withLowered ids) := by
  rw [runIn_typeOf, show env.type? (s.withLowered ids) e.id = env.type? s e.id from rfl, h]

/-- What has no known value is lowered by its form. -/
theorem Yields.expression (hkind : env.kind? s e.id = some k) (hunknown : env.constant? s e.id = none)
    (h : Yields env s scope (byForm self e none) toLua outcome) :
    Yields env s scope (Lower.expression self e none) toLua outcome := by
  intro ids
  obtain ⟨type, htype, -⟩ := exists_type_of_kind hkind
  -- The facts do not depend on what is recorded.
  have hrun := runIn_expression_form (s := s.withLowered ids) htype hunknown self none
  split at hrun
  all_goals
    obtain ⟨f, ids', a, hform, hf⟩ := h _
    exact ⟨f, ids', a, hrun.trans hform, hf⟩

/-- What has a known value is lowered to its literal in the view of its kind. -/
theorem runIn_expression_known (hkind : env.kind? s e.id = some k) {c : Constant} {f : Fragment}
    (hc : env.constant? s e.id = some c) (hview : c.inKind k none = some (some f))
    (ids : List NodeId) :
    (Lower.expression self e none).runIn env (s.withLowered ids) = (.ok f, s.withLowered ids) := by
  obtain ⟨type, htype, hbasic⟩ := exists_type_of_kind hkind
  have hliteral : c.lower type none e.location = .ok f := by
    rw [Constant.lower, hbasic]
    simp only [hview]
  rw [runIn_expression_constant (s := s.withLowered ids) htype hc, hliteral]
  rfl

/-- A known integer is lowered to its literal, which needs no wrapping. -/
theorem runIn_expression_integer (hkind : env.kind? s e.id = some k) (hsized : k.isSized) {value : Int}
    (hvalue : (env.constant? s e.id).bind Constant.toInt? = some value) (hrange : k.InRange value)
    (ids : List NodeId) :
    (Lower.expression self e none).runIn env (s.withLowered ids) =
      (.ok (integerFragment value), s.withLowered ids) := by
  obtain ⟨c, hc, htoInt⟩ := Option.bind_eq_some_iff.mp hvalue
  have hwrap : wrapInteger value k = value :=
    (wrapInteger_eq_wrap hsized value).trans (wrap_of_inRange hrange)
  refine runIn_expression_known hkind hc ?_ ids
  rw [inKind_of_isInteger (Bool.and_eq_true_iff.mp hsized).1 htoInt]
  exact congrArg (some ∘ some ∘ integerFragment) hwrap

/-- A literal means the known value that it was written for. -/
theorem means_literal (value : Int) :
    Means env scope Value.ofInt (literalExp value) fun _ => .ok value :=
  fun _ _ hlibrary _ => eval_literalExp hlibrary value

/-- A known integer yields its value. -/
theorem yields_constant (hkind : env.kind? s e.id = some k) (hsized : k.isSized) {value : Int}
    (hvalue : (env.constant? s e.id).bind Constant.toInt? = some value) (hrange : k.InRange value) :
    Yields env s scope (Lower.expression self e none) Value.ofInt fun _ => .ok value :=
  fun ids => ⟨_, ids, _, runIn_expression_integer hkind hsized hvalue hrange ids,
    denotes_integerFragment (le_of_inRange hrange).1, means_literal value⟩

/-! ### Operands -/

/-- An integer expression is not known or has a value in range. -/
theorem Integral.known (h : Integral env s scope e k) :
    env.constant? s e.id = none ∨
      ∃ value, (env.constant? s e.id).bind Constant.toInt? = some value ∧ k.InRange value := by
  cases h with
  | constant _ _ hvalue hrange => exact .inr ⟨_, hvalue, hrange⟩
  | var hnode | qualified hnode | paren hnode | unary hnode | binary hnode | shift hnode
  | conversion hnode => exact .inl hnode.unknown

/-- What is computed may stand for an operand, folded or not: nothing is known that could be folded.
-/
theorem Yields.fills (hunknown : env.constant? s e.id = none)
    (h : Yields env s scope (self e none) Value.ofInt x) :
    Fills env s scope self .expression e x ∧ Fills env s scope self .folded e x := by
  have hnone (ids : List NodeId) :
      (env.constant? (s.withLowered ids) e.id).bind Constant.toInt? = none := by
    rw [show env.constant? (s.withLowered ids) e.id = env.constant? s e.id from rfl, hunknown]
    rfl
  constructor <;> intro ids <;> obtain ⟨f, ids', a, hrun, hf, hmeans⟩ := h ids
  -- As an operand it is put between brackets where it needs them.
  · exact ⟨f.operand, ids', a, Puts.operand (s := s.withLowered ids) hunknown hrun, hf.tight,
      fun c hc => ⟨(hf.head c hc).1, fun _ => (hf.head c hc).2⟩, hmeans⟩
  · refine ⟨f.operand, ids', a, ?_, hf.tight, fun c hc => ⟨(hf.head c hc).1, fun _ => (hf.head c hc).2⟩,
      hmeans⟩
    rw [← Env.written_of_unknown (s := s.withLowered ids) hunknown f]
    exact Puts.folded (hnone ids) hrun

/-- A literal is written as it is, also where it stands as an operand. -/
theorem fills_constant (hkind : env.kind? s e.id = some k) (hsized : k.isSized) {value : Int}
    (hvalue : (env.constant? s e.id).bind Constant.toInt? = some value) (hrange : k.InRange value) :
    Fills env s scope (Lower.expression self) .expression e (fun _ => .ok value) ∧
      Fills env s scope (Lower.expression self) .folded e fun _ => .ok value := by
  -- The literal of a constant may stand for an operand as it is, for it begins with no sign that
  -- could grow together.
  have htight := tight_intLiteral (le_of_inRange hrange).1
  have hhead : ∀ c ∈ (intLiteral value).toList.head?,
      c ≠ '=' ∧ (env.constant? s e.id = none → c ≠ '-') := fun c hc =>
    ⟨(head_intLiteral c hc).1, fun hunknown => by simp [hunknown] at hvalue⟩
  constructor <;> intro ids
  -- Written as an operand, and folded.
  · refine ⟨_, ids, _, ?_, htight, hhead, means_literal value⟩
    have hrun : (Lower.expression self e none).runIn env (s.withLowered ids) = _ :=
      runIn_expression_integer hkind hsized hvalue hrange ids
    obtain ⟨c, hc, -⟩ := Option.bind_eq_some_iff.mp hvalue
    exact fun {_ _ _ _} => Puts.known (s := s.withLowered ids) hc hrun
  · exact ⟨intLiteral value, ids, _, Puts.folded_constant (s := s.withLowered ids) hvalue, htight,
      hhead, means_literal value⟩

/-- Integer expressions are faithful operands if they are lowered faithfully. -/
theorem Integral.fills (h : Integral env s scope e k)
    (hyields : Yields env s scope (Lower.expression self e none) Value.ofInt
      fun σ => e.integer env s σ) :
    Fills env s scope (Lower.expression self) .expression e (fun σ => e.integer env s σ) ∧
      Fills env s scope (Lower.expression self) .folded e fun σ => e.integer env s σ := by
  rcases h.known with hunknown | ⟨value, hvalue, hrange⟩
  · exact hyields.fills hunknown
  · simp only [integer_of_known hvalue]
    exact fills_constant h.kind h.sized hvalue hrange

end

end GoLua
