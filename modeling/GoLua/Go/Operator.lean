/-!
# Operators

The operators of Go expressions. Each has a spelling in Go, which messages use, and a label, which
data files use; the binary ones also have a token in emitted Lua, where inequality, exclusive or and
the connectives are spelled differently.
-/

namespace GoLua

/-- A binary operator. -/
inductive BinaryOp where
  | add | sub | mul | quo | rem
  | and | or | xor | andNot | shl | shr
  | logicalAnd | logicalOr
  | eql | neq | lss | leq | gtr | geq
  deriving DecidableEq, Repr

namespace BinaryOp

/-- How emitted Lua spells the operator. -/
def luaToken : BinaryOp → String
  | .add => "+"
  | .sub => "-"
  | .mul => "*"
  | .quo => "/"
  | .rem => "%"
  | .and => "&"
  | .or => "|"
  | .xor => "~"
  | .andNot => "& ~"
  | .shl => "<<"
  | .shr => ">>"
  | .logicalAnd => "and"
  | .logicalOr => "or"
  | .eql => "=="
  | .neq => "~="
  | .lss => "<"
  | .leq => "<="
  | .gtr => ">"
  | .geq => ">="

/-- How Go spells the operator. -/
def spelling : BinaryOp → String
  | .add => "+"
  | .sub => "-"
  | .mul => "*"
  | .quo => "/"
  | .rem => "%"
  | .and => "&"
  | .or => "|"
  | .xor => "^"
  | .andNot => "&^"
  | .shl => "<<"
  | .shr => ">>"
  | .logicalAnd => "&&"
  | .logicalOr => "||"
  | .eql => "=="
  | .neq => "!="
  | .lss => "<"
  | .leq => "<="
  | .gtr => ">"
  | .geq => ">="

/-- How a data file names the operator. -/
def label : BinaryOp → String
  | .add => "Add"
  | .sub => "Sub"
  | .mul => "Mul"
  | .quo => "Quo"
  | .rem => "Rem"
  | .and => "And"
  | .or => "Or"
  | .xor => "Xor"
  | .andNot => "AndNot"
  | .shl => "Shl"
  | .shr => "Shr"
  | .logicalAnd => "LogicalAnd"
  | .logicalOr => "LogicalOr"
  | .eql => "Eql"
  | .neq => "Neq"
  | .lss => "Lss"
  | .leq => "Leq"
  | .gtr => "Gtr"
  | .geq => "Geq"

/-- Equality and the orderings. -/
def isComparison : BinaryOp → Bool
  | .eql | .neq | .lss | .leq | .gtr | .geq => true
  | _ => false

/-- The connectives, whose right operand may stay unevaluated. -/
def isLogical : BinaryOp → Bool
  | .logicalAnd | .logicalOr => true
  | _ => false

/-- Every binary operator, once. -/
def all : List BinaryOp :=
  [.add, .sub, .mul, .quo, .rem, .and, .or, .xor, .andNot, .shl, .shr, .logicalAnd, .logicalOr,
    .eql, .neq, .lss, .leq, .gtr, .geq]

/-- The operator that a data file names by `s`. -/
def ofLabel? (s : String) : Option BinaryOp :=
  all.find? fun op => op.label == s

end BinaryOp

/-- A unary operator. -/
inductive UnaryOp where
  | plus
  | neg
  | not
  | bitNot
  | addrOf
  /-- The receive from a channel, `<-ch`. -/
  | recv
  deriving DecidableEq, Repr

namespace UnaryOp

/-- How Go spells the operator. -/
def spelling : UnaryOp → String
  | .plus => "+"
  | .neg => "-"
  | .not => "!"
  | .bitNot => "^"
  | .addrOf => "&"
  | .recv => "<-"

/-- How a data file names the operator. -/
def label : UnaryOp → String
  | .plus => "Plus"
  | .neg => "Neg"
  | .not => "Not"
  | .bitNot => "BitNot"
  | .addrOf => "AddrOf"
  | .recv => "Recv"

/-- Every unary operator, once. -/
def all : List UnaryOp :=
  [.plus, .neg, .not, .bitNot, .addrOf, .recv]

/-- The operator that a data file names by `s`. -/
def ofLabel? (s : String) : Option UnaryOp :=
  all.find? fun op => op.label == s

end UnaryOp

end GoLua
