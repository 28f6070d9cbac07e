import GoLua.Lower.Binary
import GoLua.Lower.Call
import GoLua.Lower.Composite
import GoLua.Lower.FunctionLiteral
import GoLua.Lower.Unary

/-!
# Lowering expressions

The rules of the other modules say how an expression is lowered, given how its parts are. Here the
knot is tied.

Lowering does not follow the tree alone. A receive becomes a call made of new nodes, a receiver the
address of a new selector, and each of these is lowered in turn, although it contains the expression
that it was made for. What bounds the recursion is that each expression gives rise to only a few new
nodes around its parts. `lowerWithin` counts how many lowerings may be inside one another, and
`nestingBound` gives a count that is enough for a tree.
-/

namespace GoLua

namespace Lower

/-- An expression without a constant value, given how its parts are lowered. -/
def byForm (self : Lowering) (e : Expr) (desired : Option GoType) : LowerM Fragment :=
  match e with
  | .basicLit _ token => unsupported e (.literalWithoutValue token)
  | .ident _ name => identifier e name
  | .unary _ op operand => unary self e op operand
  | .binary _ op left right => binary self e op left right
  | .index _ base place => index self e base place
  | .slice _ base low high max => slice self e base low high max
  | .selector _ base sel => selector self e base sel
  | .call _ func args ellipsis => call self e func args ellipsis
  | .compositeLit _ elements => composite self e elements
  | .typeAssert _ base asserted => typeAssertion self e base asserted
  -- Fragments bring their own brackets, so those of the source are dropped.
  | .paren _ inner => self inner desired
  | .star _ inner => dereference self e inner
  | .funcLit _ body => functionLiteral e body
  | .typeExpr _ => unsupported e .typeAsValue

/-- An expression, given how its parts are lowered: as a constant if it is one, and else by its
form. -/
def expression (self : Lowering) (e : Expr) (desired : Option GoType) : LowerM Fragment := do
  let type ← typeOf e
  match ← constantOf e with
  | some c => ofExcept (c.lower type desired e.location)
  | none =>
    recordLowered e
    byForm self e desired

/-- Lowering with at most `n` lowerings inside one another. -/
def within : Nat → Lowering
  | 0 => fun e _ => fail (.nesting e.location)
  | n + 1 => expression (within n)

/-- How many lowerings are inside one another at most, for trees of a total size. -/
def nestingBound (size : Nat) : Nat :=
  4 * size + 8

end Lower

/-- The number of nodes of the operands that are still to be lowered. -/
def operandsSize : List Operand → Nat
  | [] => 0
  | .expr e :: rest => e.size + operandsSize rest
  | _ :: rest => operandsSize rest

/-! ### Entry points -/

/-- **Lowering.** The text of an expression. A desired type only decides the width of an integer
constant. -/
def lower (e : Expr) (desired : Option GoType) : LowerM Fragment :=
  Lower.within (Lower.nestingBound e.size) e desired

/-- The text of an expression that is converted explicitly. -/
def lowerConversion (e : Expr) (target : GoType) : LowerM Fragment :=
  Lower.conversion (Lower.within (Lower.nestingBound e.size)) e target

/-- The text of an expression that is assigned, passed or returned as a type. -/
def lowerImplicit (e : Expr) (target : GoType) : LowerM Fragment :=
  Lower.implicit (Lower.within (Lower.nestingBound e.size)) e target

/-- As `lowerImplicit`, with structs and arrays copied. -/
def lowerImplicitCopy (e : Expr) (target : GoType) : LowerM Fragment :=
  Lower.implicitCopy (Lower.within (Lower.nestingBound e.size)) e target

/-- The text of a template whose operands are expressions of the program. -/
def lowerTemplate (parens : Bool) (pattern : String) (operands : List Operand) : LowerM Fragment :=
  Template.renderAs parens (Lower.within (Lower.nestingBound (operandsSize operands))) pattern
    operands

end GoLua
