import GoLua.Lower.Call
import GoLua.Proofs.Integer.Cell
import GoLua.Proofs.Lua.Evaluation

/-!
# What integer expressions mean

What Go makes of an expression on integers: the result of an operator is computed exactly and then
cut to the range of its kind, a division by zero panics, and so does a shift by a count that no shift
has. `Expr.integer` says this for expression trees and `Expr.truth` for orderings of integers, given
the values of variables. Both look at the facts about nodes and not at emitted text.

`Integral` and `Ordered` tell for which trees that is all there is to say: those made of constants and
variables by the operators on integers, by conversions between integer kinds and by parentheses, where
the facts about nodes fit together as a type checker leaves them.

Emitted text has the same meaning if it comes to the cell of the integer, and to a fault where Go
panics because of a divisor (`Agrees`).
-/

namespace GoLua

/-- Why an expression of a program has no value. -/
inductive Panic where
  | divideByZero
  /-- A count that no shift has: a negative one, or one beyond a signed cell. -/
  | shiftCount
  /-- The expression is none of those that have a meaning here. -/
  | meaningless
  deriving DecidableEq, Repr

/-! ### Operators -/

/-- The exact result of an operator with one operand. -/
def UnaryOp.exact (a : Int) : UnaryOp → Except Panic Int
  | .plus => .ok a
  | .neg => .ok (-a)
  | .bitNot => .ok (-a - 1)
  | _ => .error .meaningless

/-- What is divided by an integer. -/
def divided (b : Int) (result : Int) : Except Panic Int :=
  if b = 0 then .error .divideByZero else .ok result

/-- What is shifted by a count. -/
def shifted (count : Int) (result : Nat → Int) : Except Panic Int :=
  if 0 ≤ count ∧ count < 0x8000000000000000 then .ok (result count.toNat) else .error .shiftCount

/-- The exact result of an operator with two operands. Operators on bits work on words of the kind;
division cuts towards zero, and a remainder has the sign of the dividend. -/
def BinaryOp.exact (k : Kind) (a b : Int) : BinaryOp → Except Panic Int
  | .add => .ok (a + b)
  | .sub => .ok (a - b)
  | .mul => .ok (a * b)
  | .quo => divided b (a.tdiv b)
  | .rem => divided b (a.tmod b)
  | .and => .ok (k.number (k.word a &&& k.word b))
  | .or => .ok (k.number (k.word a ||| k.word b))
  | .xor => .ok (k.number (k.word a ^^^ k.word b))
  | .andNot => .ok (k.number (k.word a &&& ~~~k.word b))
  | .shl => shifted b fun count => a * 2 ^ count
  | .shr => shifted b fun count => a >>> count
  | _ => .error .meaningless

/-- Whether an ordering holds. -/
def BinaryOp.compare (a b : Int) : BinaryOp → Except Panic Bool
  | .lss => .ok (decide (a < b))
  | .leq => .ok (decide (a ≤ b))
  | .gtr => .ok (decide (b < a))
  | .geq => .ok (decide (b ≤ a))
  | _ => .error .meaningless

/-! ### Expressions -/

/-- The kind of a node. -/
def Env.kind? (env : Env) (s : FunctionState) (id : NodeId) : Option Kind :=
  (env.type? s id).bind GoType.basicKind?

/-- A value that is known before the program runs, or else what is computed when it runs. -/
def knownOr {α : Type} (known : Option Constant) (view : Constant → Option α)
    (computed : Except Panic α) : Except Panic α :=
  match known with
  | none => computed
  | some c =>
    match view c with
    | some a => .ok a
    | none => .error .meaningless

/-- What a variable holds. -/
def held (σ : Object → Int) : Option Object → Except Panic Int
  | some obj => .ok (σ obj)
  | none => .error .meaningless

/-- An exact result, cut to the range of a kind. -/
def cutTo (kind : Option Kind) (exact : Kind → Except Panic Int) : Except Panic Int :=
  match kind with
  | some k => (exact k).map k.wrap
  | none => .error .meaningless

section

variable (env : Env) (s : FunctionState) (σ : Object → Int)

mutual

/-- **Integers of a program.** The value of an expression, given the values of variables. A constant
has the value that is known of it, and a conversion cuts its operand to the new kind. -/
def Expr.integer (e : Expr) : Except Panic Int :=
  knownOr (env.constant? s e.id) Constant.toInt? <|
    match e with
    | .ident n _ => held σ (env.binding s n.id).object?
    | .selector _ _ sel => held σ (env.binding s sel.id).object?
    | .paren _ inner => inner.integer
    | .unary n op operand =>
      cutTo (env.kind? s n.id) fun _ => do op.exact (← operand.integer)
    | .binary n op left right =>
      cutTo (env.kind? s n.id) fun k => do
        let a ← left.integer
        op.exact k a (← right.integer)
    | .call n _ args _ => cutTo (env.kind? s n.id) fun _ => firstInteger args
    | _ => .error .meaningless
termination_by structural e

/-- The value of the first of several expressions. -/
def firstInteger (es : List Expr) : Except Panic Int :=
  match es with
  | [] => .error .meaningless
  | e :: _ => e.integer
termination_by structural es

end

/-- Whether an ordering of integers holds, given the values of variables. -/
def Expr.truth (e : Expr) : Except Panic Bool :=
  knownOr (env.constant? s e.id) Constant.toBool? <|
    match e with
    | .paren _ inner => inner.truth
    | .binary _ op left right => do
      let a ← left.integer env s σ
      op.compare a (← right.integer env s σ)
    | _ => .error .meaningless
termination_by structural e

end

/-! ### Trees with a meaning -/

/-- The operators that take two integers of a kind to one. -/
def arithmeticOps : List BinaryOp :=
  [.add, .sub, .mul, .quo, .rem, .and, .or, .xor, .andNot]

/-- The operators that take an integer and a count. -/
def shiftOps : List BinaryOp :=
  [.shl, .shr]

/-- The operators that compare two integers of a kind. -/
def orderingOps : List BinaryOp :=
  [.lss, .leq, .gtr, .geq]

section

variable (env : Env) (s : FunctionState) (scope : List Object)

/-- A node of a kind, whose value is not known before the program runs. -/
structure Env.Computes (id : NodeId) (k : Kind) : Prop where
  kind : env.kind? s id = some k
  unknown : env.constant? s id = none

/-- An identifier node that stands for a variable in scope. -/
structure Env.Reads (id : NodeId) (name : String) (obj : Object) (k : Kind) : Prop where
  binding : (env.binding s id).object? = some obj
  isVar : obj.kind = .var
  type : obj.type.basicKind? = some k
  named : name ≠ "_"
  plain : Lower.hostEntity? env.config obj = none
  mem : obj ∈ scope

/-- **Integer expressions** of a kind. -/
inductive Integral : Expr → Kind → Prop where
  /-- Whatever has a known value is a constant, whatever its form is. -/
  | constant {e : Expr} {k : Kind} {n : Int} (hkind : env.kind? s e.id = some k) (hkept : k.isKept)
      (hvalue : (env.constant? s e.id).bind Constant.toInt? = some n) (hrange : k.InRange n) :
      Integral e k
  | var {n : Node} {name : String} {obj : Object} {k : Kind} (hnode : env.Computes s n.id k)
      (hkept : k.isKept) (hreads : env.Reads s scope n.id name obj k) : Integral (.ident n name) k
  /-- A variable of another package. -/
  | qualified {n m : Node} {base : Expr} {name : String} {obj : Object} {k : Kind}
      (hnode : env.Computes s n.id k) (hkept : k.isKept)
      (hresolved : env.selection? s n.id = none) (hreads : env.Reads s scope m.id name obj k) :
      Integral (.selector n base (.ident m name)) k
  | paren {n : Node} {inner : Expr} {k : Kind} (hnode : env.Computes s n.id k)
      (hinner : Integral inner k) : Integral (.paren n inner) k
  /-- An operator of which the operand is constant is a constant itself. -/
  | unary {n : Node} {op : UnaryOp} {operand : Expr} {k : Kind} (hnode : env.Computes s n.id k)
      (hop : op ∈ [.plus, .neg, .bitNot]) (hoperand : Integral operand k)
      (hunknown : env.constant? s operand.id = none) : Integral (.unary n op operand) k
  | binary {n : Node} {op : BinaryOp} {left right : Expr} {k : Kind}
      (hnode : env.Computes s n.id k) (hop : op ∈ arithmeticOps) (hleft : Integral left k)
      (hright : Integral right k) : Integral (.binary n op left right) k
  /-- A count may have a kind of its own. -/
  | shift {n : Node} {op : BinaryOp} {left right : Expr} {k c : Kind}
      (hnode : env.Computes s n.id k) (hop : op ∈ shiftOps) (hleft : Integral left k)
      (hright : Integral right c) : Integral (.binary n op left right) k
  /-- Identical types have the same kind. -/
  | conversion {n : Node} {func value : Expr} {ellipsis : Bool} {k c : Kind}
      (hnode : env.Computes s n.id k) (hkept : k.isKept)
      (hfunc : (Lower.isTypeExpr func).runIn env s = (.ok true, s)) (hvalue : Integral value c)
      (hidentical : ∀ source ∈ env.type? s value.id, ∀ target ∈ env.type? s n.id,
        source.identical target → c = k) : Integral (.call n func [value] ellipsis) k

/-- **Orderings** of two integer expressions of one kind. -/
inductive Ordered : Expr → Prop where
  | constant {e : Expr} {k : Kind} {b : Bool} (hkind : env.kind? s e.id = some k)
      (htruth : k.isTruth) (hvalue : (env.constant? s e.id).bind Constant.toBool? = some b) :
      Ordered e
  | paren {n : Node} {inner : Expr} {k : Kind} (hnode : env.Computes s n.id k)
      (hinner : Ordered inner) : Ordered (.paren n inner)
  | compare {n : Node} {op : BinaryOp} {left right : Expr} {k c : Kind}
      (hnode : env.Computes s n.id c) (hop : op ∈ orderingOps)
      (hleft : Integral env s scope left k) (hright : Integral env s scope right k) :
      Ordered (.binary n op left right)

end

/-! ### Variables -/

/-- Whether Lua can spell the names of an entity. Every name of letters, digits and underscores is
spelled, reserved or not. -/
def Object.IsSpelled (config : Config) (obj : Object) : Prop :=
  Lua.isName (Lua.safeName obj.name) ∧
    ∀ package ∈ obj.package, package ≠ config.currentPackage → Lua.isName (packageName package)

/-- The expression that a qualified name is. -/
def Object.qualifiedPlace (config : Config) (obj : Object) : Lua.Exp :=
  match obj.package with
  | none => .name (Lua.safeName obj.name)
  | some package =>
    if package = config.currentPackage then .name (Lua.safeName obj.name)
    else .field (.name (packageName package)) (Lua.safeName obj.name)

/-- Where emitted code keeps a variable: under its name, or in a box that has this name. -/
def Object.place (config : Config) (obj : Object) : Lua.Exp :=
  if obj.escaping && obj.kind == .var then .index (obj.qualifiedPlace config) (.integer 0)
  else obj.qualifiedPlace config

/-- The variables in scope are in the range of their kinds, and their places hold the cells. -/
def Stores (config : Config) (scope : List Object) (globals : String → Lua.Value)
    (σ : Object → Int) : Prop :=
  ∀ obj ∈ scope, (∀ k ∈ obj.type.basicKind?, k.InRange (σ obj)) ∧
    (obj.place config).eval globals = .ok (.integer (Lua.cell (σ obj)))

/-! ### Agreement -/

/-- **Agreement.** What emitted text comes to is what Go comes to: the same value, or a fault where Go
panics because of a divisor. Nothing is said of counts that no shift has. -/
def Agrees {α : Type} (toLua : α → Lua.Value) :
    Except Panic α → Except Lua.Fault Lua.Value → Prop
  | .ok a, r => r = .ok (toLua a)
  | .error .divideByZero, r => r = .error .divideByZero
  | .error .shiftCount, _ => True
  | .error .meaningless, _ => False

/-- The value of Lua that stands for an integer. -/
abbrev Lua.Value.ofInt (n : Int) : Lua.Value :=
  .integer (Lua.cell n)

section

variable {α β : Type} {f : α → Lua.Value} {g : β → Lua.Value} {x : Except Panic α}
  {r : Except Lua.Fault Lua.Value} {next : α → Except Panic β}
  {luaNext : Lua.Value → Except Lua.Fault Lua.Value}

/-- Steps that agree may follow each other. -/
theorem Agrees.bind (h : Agrees f x r)
    (hnext : ∀ a, x = .ok a → Agrees g (next a) (luaNext (f a))) :
    Agrees g (x >>= next) (r >>= luaNext) := by
  match x, h with
  | .ok a, h =>
    cases h
    exact hnext a rfl
  | .error .divideByZero, h =>
    cases h
    rfl
  | .error .shiftCount, _ => trivial

/-- What agrees goes on to agree if Lua changes how a value is held. -/
theorem Agrees.through {f' : α → Lua.Value} (hx : Agrees f x r)
    (hnext : ∀ a, luaNext (f a) = .ok (f' a)) : Agrees f' x (r >>= luaNext) := by
  match x, hx with
  | .ok a, hx =>
    cases hx
    exact hnext a
  | .error .divideByZero, hx =>
    cases hx
    rfl
  | .error .shiftCount, _ => trivial

/-- A result that stays as it is agrees with what it agreed with. -/
theorem Agrees.map_self {h : α → α} (hx : Agrees f x r) (hnext : ∀ a, x = .ok a → h a = a) :
    Agrees f (x.map h) r := by
  match x, hx with
  | .ok a, hx =>
    cases hx
    change Except.ok (f a) = .ok (f (h a))
    rw [hnext a rfl]
  | .error .divideByZero, hx =>
    cases hx
    rfl
  | .error .shiftCount, _ => trivial

end

/-! ### Values of integer expressions -/

section

variable {α : Type} {known : Option Constant} {view : Constant → Option α}
  {computed : Except Panic α}

/-- What is not known is computed. -/
theorem knownOr_none (h : known = none) : knownOr known view computed = computed := by
  rw [h]
  rfl

/-- What is known is taken from the view of the constant. -/
theorem knownOr_some {a : α} (h : known.bind view = some a) :
    knownOr known view computed = .ok a := by
  obtain ⟨c, rfl, hview⟩ := Option.bind_eq_some_iff.mp h
  simp only [knownOr, hview]

end

section

variable {env : Env} {s : FunctionState} {scope : List Object} {σ : Object → Int} {e : Expr}
  {n : Node} {k : Kind}

/-- A known value is the value, whatever the form of the expression is. -/
theorem integer_of_known {value : Int}
    (h : (env.constant? s e.id).bind Constant.toInt? = some value) :
    e.integer env s σ = .ok value := by
  cases e <;> exact knownOr_some h

/-- A variable is the integer that it stores. -/
theorem integer_ident (h : env.Computes s n.id k) {name : String} {obj : Object}
    (hreads : env.Reads s scope n.id name obj k) :
    (Expr.ident n name).integer env s σ = .ok (σ obj) := by
  refine (knownOr_none h.unknown).trans ?_
  rw [hreads.binding]
  rfl

/-- So is a variable of another package. -/
theorem integer_qualified (h : env.Computes s n.id k) {base : Expr} {m : Node} {name : String}
    {obj : Object} (hreads : env.Reads s scope m.id name obj k) :
    (Expr.selector n base (.ident m name)).integer env s σ = .ok (σ obj) := by
  refine (knownOr_none h.unknown).trans ?_
  rw [show (Expr.ident m name).id = m.id from rfl, hreads.binding]
  rfl

/-- Brackets mean what is inside of them. -/
theorem integer_paren (h : env.Computes s n.id k) {inner : Expr} :
    (Expr.paren n inner).integer env s σ = inner.integer env s σ :=
  knownOr_none h.unknown

/-- A sign or a complement, wrapped. -/
theorem integer_unary (h : env.Computes s n.id k) {op : UnaryOp} {operand : Expr} :
    (Expr.unary n op operand).integer env s σ =
      (operand.integer env s σ >>= fun a => op.exact a).map k.wrap := by
  refine (knownOr_none h.unknown).trans ?_
  rw [h.kind]
  rfl

/-- Both operands in order, the operation on integers, and the result wrapped. -/
theorem integer_binary (h : env.Computes s n.id k) {op : BinaryOp} {left right : Expr} :
    (Expr.binary n op left right).integer env s σ =
      (left.integer env s σ >>= fun a => right.integer env s σ >>= fun b => op.exact k a b).map
        k.wrap := by
  refine (knownOr_none h.unknown).trans ?_
  rw [h.kind]
  rfl

/-- A conversion wraps into its own kind. -/
theorem integer_conversion (h : env.Computes s n.id k) {func value : Expr} {ellipsis : Bool} :
    (Expr.call n func [value] ellipsis).integer env s σ = (value.integer env s σ).map k.wrap := by
  refine (knownOr_none h.unknown).trans ?_
  rw [h.kind]
  rfl

/-- A known truth value. -/
theorem truth_of_known {b : Bool} (h : (env.constant? s e.id).bind Constant.toBool? = some b) :
    e.truth env s σ = .ok b := by
  cases e <;> exact knownOr_some h

/-- Brackets around a comparison. -/
theorem truth_paren (h : env.Computes s n.id k) {inner : Expr} :
    (Expr.paren n inner).truth env s σ = inner.truth env s σ :=
  knownOr_none h.unknown

/-- Both operands in order, and their comparison. -/
theorem truth_compare (h : env.Computes s n.id k) {op : BinaryOp} {left right : Expr} :
    (Expr.binary n op left right).truth env s σ =
      left.integer env s σ >>= fun a => right.integer env s σ >>= fun b => op.compare a b :=
  knownOr_none h.unknown

/-- What has been cut is in range. -/
theorem inRange_of_map_wrap {exact : Except Panic Int} {value : Int}
    (h : exact.map k.wrap = .ok value) : k.InRange value := by
  cases exact with
  | error p => cases h
  | ok m =>
    obtain rfl : k.wrap m = value := Except.ok.inj h
    exact Lua.inRange_wrap k m

/-- **Values are in range.** An integer expression of a kind has a value in the range of the kind. -/
theorem Integral.inRange (h : Integral env s scope e k) {config : Config}
    {globals : String → Lua.Value} (hstores : Stores config scope globals σ) {value : Int}
    (hvalue : e.integer env s σ = .ok value) : k.InRange value := by
  -- A constant is in range by assumption, a variable by what is stored, and everything else is
  -- wrapped.
  induction h with
  | constant _ _ hknown hrange =>
    rw [integer_of_known hknown] at hvalue
    obtain rfl := Except.ok.inj hvalue
    exact hrange
  | var hnode _ hreads =>
    rw [integer_ident hnode hreads] at hvalue
    obtain rfl := Except.ok.inj hvalue
    exact (hstores _ hreads.mem).1 _ hreads.type
  | qualified hnode _ _ hreads =>
    rw [integer_qualified hnode hreads] at hvalue
    obtain rfl := Except.ok.inj hvalue
    exact (hstores _ hreads.mem).1 _ hreads.type
  | paren hnode _ ih =>
    rw [integer_paren hnode] at hvalue
    exact ih hvalue
  | unary hnode =>
    rw [integer_unary hnode] at hvalue
    exact inRange_of_map_wrap hvalue
  | binary hnode | shift hnode =>
    rw [integer_binary hnode] at hvalue
    exact inRange_of_map_wrap hvalue
  | conversion hnode =>
    rw [integer_conversion hnode] at hvalue
    exact inRange_of_map_wrap hvalue

/-! ### Kinds of integer expressions -/

/-- An integer expression has its kind recorded. -/
theorem Integral.kind (h : Integral env s scope e k) : env.kind? s e.id = some k := by
  cases h with
  | constant hkind => exact hkind
  | var hnode | qualified hnode | paren hnode | unary hnode | binary hnode | shift hnode
  | conversion hnode => exact hnode.kind

/-- An integer expression is of a kind that is kept in a cell. -/
theorem Integral.kept (h : Integral env s scope e k) : k.isKept := by
  induction h with
  | constant _ hkept | var _ hkept | qualified _ hkept | conversion _ hkept => exact hkept
  | paren _ _ ih | unary _ _ _ _ ih | binary _ _ _ _ ih | shift _ _ _ _ ih => exact ih

end

end GoLua
