import GoLua.Go.Operator
import GoLua.Source.Position

/-!
# Expression trees

The expressions of a Go program as a parser leaves them. A tree holds no types, values or bindings:
what is known about a node is looked up by the number of the node (`GoLua.Facts`), so the same tree
can be read against other facts.

A selector's second part is always an identifier node of its own, because what a qualified name
binds to is recorded there. The body of a function literal is a handle: statements are lowered
elsewhere.
-/

namespace GoLua

/-- Identity of a node within a compilation unit. -/
abbrev NodeId := Nat

/-- From here on, node numbers belong to nodes that lowering makes for itself. -/
def firstSyntheticId : NodeId := 0x80000000

/-- Whether a node was made by lowering. -/
def isSyntheticId (id : NodeId) : Bool :=
  firstSyntheticId ≤ id

/-- What every expression carries: its number and where it was written. -/
structure Node where
  id : NodeId
  span : Span
  deriving DecidableEq, Repr

mutual

/-- An expression. -/
inductive Expr where
  /-- A literal token; its value is a fact about the node. -/
  | basicLit (node : Node) (token : String)
  | ident (node : Node) (name : String)
  | unary (node : Node) (op : UnaryOp) (operand : Expr)
  | binary (node : Node) (op : BinaryOp) (left right : Expr)
  | index (node : Node) (base index : Expr)
  | slice (node : Node) (base : Expr) (low high max : Option Expr)
  /-- `base.sel`, where `sel` is an identifier. -/
  | selector (node : Node) (base sel : Expr)
  /-- A call; `ellipsis` tells that the last argument is followed by `...`. -/
  | call (node : Node) (func : Expr) (args : List Expr) (ellipsis : Bool)
  /-- `T{...}`; the type is a fact about the node. -/
  | compositeLit (node : Node) (elements : List Element)
  /-- `base.(T)`; without a type it is the guard of a type switch. -/
  | typeAssert (node : Node) (base : Expr) (asserted : Option Expr)
  | paren (node : Node) (inner : Expr)
  /-- `*inner` -/
  | star (node : Node) (inner : Expr)
  | funcLit (node : Node) (body : Nat)
  /-- An expression that denotes a type, such as the callee of a conversion. -/
  | typeExpr (node : Node)

/-- An element of a composite literal. -/
structure Element where
  key : Option Expr
  value : Expr

end

namespace Expr

def node : Expr → Node
  | .basicLit n _ | .ident n _ | .unary n _ _ | .binary n _ _ _ | .index n _ _ | .slice n _ _ _ _
  | .selector n _ _ | .call n _ _ _ | .compositeLit n _ | .typeAssert n _ _ | .paren n _
  | .star n _ | .funcLit n _ | .typeExpr n => n

def id (e : Expr) : NodeId := e.node.id

def span (e : Expr) : Span := e.node.span

/-- Where the expression starts. -/
def location (e : Expr) : Location := e.span.start

/-- The name of an identifier. -/
def identName? : Expr → Option String
  | .ident _ name => some name
  | _ => none

def isIdent : Expr → Bool
  | .ident _ _ => true
  | _ => false

def isCompositeLit : Expr → Bool
  | .compositeLit _ _ => true
  | _ => false

/-- The expression inside any number of parentheses. -/
def unparen : Expr → Expr
  | .paren _ inner => inner.unparen
  | e => e
termination_by structural e => e

/-- What kind of expression it is, in the words of a message. -/
def describe : Expr → String
  | .basicLit _ _ => "basic literal"
  | .ident _ _ => "identifier"
  | .unary _ _ _ => "unary expression"
  | .binary _ _ _ _ => "binary expression"
  | .index _ _ _ => "index expression"
  | .slice _ _ _ _ _ => "slice expression"
  | .selector _ _ _ => "selector"
  | .call _ _ _ _ => "call"
  | .compositeLit _ _ => "composite literal"
  | .typeAssert _ _ _ => "type assertion"
  | .paren _ _ => "parenthesized expression"
  | .star _ _ => "star expression"
  | .funcLit _ _ => "function literal"
  | .typeExpr _ => "type expression"

/-- The same expression, said to be written elsewhere. Its parts stay where they are. -/
def withSpan (span : Span) : Expr → Expr
  | .basicLit n token => .basicLit { n with span } token
  | .ident n name => .ident { n with span } name
  | .unary n op operand => .unary { n with span } op operand
  | .binary n op left right => .binary { n with span } op left right
  | .index n base place => .index { n with span } base place
  | .slice n base low high max => .slice { n with span } base low high max
  | .selector n base sel => .selector { n with span } base sel
  | .call n func args ellipsis => .call { n with span } func args ellipsis
  | .compositeLit n elements => .compositeLit { n with span } elements
  | .typeAssert n base asserted => .typeAssert { n with span } base asserted
  | .paren n inner => .paren { n with span } inner
  | .star n inner => .star { n with span } inner
  | .funcLit n body => .funcLit { n with span } body
  | .typeExpr n => .typeExpr { n with span }

end Expr

/-! ### Counting nodes -/

mutual

/-- The number of nodes of a tree. -/
def Expr.size : Expr → Nat
  | .basicLit _ _ | .ident _ _ | .funcLit _ _ | .typeExpr _ => 1
  | .unary _ _ operand => operand.size + 1
  | .binary _ _ left right => left.size + right.size + 1
  | .index _ base index => base.size + index.size + 1
  | .slice _ base low high max =>
    base.size + optionSize low + optionSize high + optionSize max + 1
  | .selector _ base sel => base.size + sel.size + 1
  | .call _ func args _ => func.size + argsSize args + 1
  | .compositeLit _ elements => elementsSize elements + 1
  | .typeAssert _ base asserted => base.size + optionSize asserted + 1
  | .paren _ inner => inner.size + 1
  | .star _ inner => inner.size + 1
termination_by structural e => e

/-- The number of nodes of a tree that may be missing. -/
def optionSize : Option Expr → Nat
  | none => 0
  | some e => e.size
termination_by structural e => e

/-- The number of nodes of several trees. -/
def argsSize : List Expr → Nat
  | [] => 0
  | e :: es => e.size + argsSize es
termination_by structural es => es

/-- The number of nodes of the elements of a literal. -/
def elementsSize : List Element → Nat
  | [] => 0
  | e :: es => e.size + elementsSize es
termination_by structural es => es

/-- The number of nodes of an element, its key included. -/
def Element.size : Element → Nat
  | ⟨key, value⟩ => optionSize key + value.size
termination_by structural e => e

end

namespace Expr

@[simp] theorem unparen_paren (n : Node) (e : Expr) : (Expr.paren n e).unparen = e.unparen := rfl

/-- No parentheses are left after they are stripped. -/
theorem unparen_ne_paren (e : Expr) (n : Node) (inner : Expr) : e.unparen ≠ .paren n inner := by
  fun_induction unparen e with
  | case1 _ _ ih => exact ih
  | case2 e h => exact fun he => h n inner he

theorem size_pos (e : Expr) : 0 < e.size := by
  cases e <;> simp [size]

/-- Stripping parentheses never enlarges a tree. -/
theorem size_unparen_le (e : Expr) : e.unparen.size ≤ e.size := by
  fun_induction unparen e with
  | case1 n e ih => simp only [size]; omega
  | case2 => exact Nat.le_refl _

end Expr

end GoLua
