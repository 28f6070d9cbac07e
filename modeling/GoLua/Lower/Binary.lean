import GoLua.Lower.Conversion

/-!
# Binary operators

* **Connectives.** The right operand runs only if the left one does not decide. If it leaves pending
  statements, or may suspend, the whole becomes a guard: the statements go into its branch.
* **Equality.** `nil` is compared by what the other side's type makes of it, interfaces and
  aggregates by the library, truth values with a constant by the value or its negation, complex
  numbers by their parts.
* **Order.** Cells are compared with their sign, so unsigned 64-bit operands have their sign bits
  turned over first.
* **Arithmetic.** Results of narrow integers are cut to their width; division and remainder go
  through the library, which checks the divisor.
-/

namespace GoLua.Lower

open Lua

/-! ### Connectives -/

/-- `left && right`, `left || right` -/
def logical (self : Lowering) (e : Expr) (op : BinaryOp) (left right : Expr) : LowerM Fragment := do
  let condition ← self left none
  let mark ← pendingCount
  let value ← inRightOf e.id (self right none)
  let body ← splitPending mark
  if body.isEmpty && !(← isSuspending right) then
    return .operation (condition.operand ++ " " ++ op.luaToken ++ " " ++ value.operand)
  else
    -- The right side's statements may run only where the left one does not decide.
    let result ← newTemporary "_v"
    leave (.guard result condition.text (op == .logicalAnd) body value.text) (some e.id) none
    return .atom result

/-! ### Equality -/

/-- How Lua spells equality, or its negation. -/
def equalityToken (negated : Bool) : String :=
  if negated then "~=" else "=="

/-- A value compared with `nil`. -/
def equalsNil (self : Lowering) (e : Expr) (negated : Bool) (value : Expr) (type : GoType) :
    LowerM Fragment := do
  let compared := renderParen self ("%e " ++ equalityToken negated ++ " nil") [value]
  if ← config (·.isHostObject type) then compared
  else
    match type.underlying with
    | .pointer _ | .interface _ | .basic .untypedNil => compared
    | .slice _ | .map _ _ | .func _ | .chan _ =>
      return (← render self (Support.isNil ++ "(%e)") [value]).negateIf negated
    | other => unsupported e (.nilComparison other)

/-- Two values of which at least one is an interface value; the other becomes one first. -/
def interfaceEquality (self : Lowering) (left right : Expr) (leftType rightType : GoType) :
    LowerM Fragment := do
  let pattern := Support.interfaceIsEqual ++ "(%e, %e)"
  if !rightType.isInterface then
    let boxed ← implicit self right leftType
    render self pattern [left, boxed]
  else if !leftType.isInterface then
    let boxed ← implicit self left rightType
    render self pattern [boxed, right]
  else render self pattern [left, right]

/-- Whether values of a type are compared by the library: aggregates, and pointers to arrays. -/
def comparesByParts (type : GoType) : Bool :=
  match type.underlying with
  | .array _ _ | .struct _ => true
  | .pointer elem => elem.isArray
  | _ => false

/-- A value compared with another one, which may be known to be a constant truth value. -/
def comparedWith (self : Lowering) (negated : Bool) (left right : Expr) (type : GoType)
    (truth? : Option Bool) : LowerM Fragment := do
  let token := equalityToken negated
  match truth? with
  -- `x == true` and `x != false` are `x`.
  | some truth => return (← self left none).negateIf (truth == negated)
  | none =>
    if type.basicKind?.any Kind.isComplex then
      let joint := if negated then " or " else " and "
      renderParen self ("%1r " ++ token ++ " %2r" ++ joint ++ "%1i " ++ token ++ " %2i")
        [left, right]
    else renderParen self ("%e " ++ token ++ " %e") [left, right]

/-- Two values of basic or reference types. -/
def plainEquality (self : Lowering) (negated : Bool) (left right : Expr) (type : GoType) :
    LowerM Fragment := do
  if type.basicKind?.any Kind.isTruth then
    comparedWith self negated left right type ((← constantOf right).bind Constant.toBool?)
  else comparedWith self negated left right type none

/-- `left == right`, `left != right`, where `nil` can only be on the right. -/
def equalityOf (self : Lowering) (e : Expr) (negated : Bool) (left right : Expr) :
    LowerM Fragment := do
  let leftType ← typeOf left
  let rightType ← typeOf right
  if ← isNil right then equalsNil self e negated left leftType
  else if leftType.isInterface || rightType.isInterface then
    return (← interfaceEquality self left right leftType rightType).negateIf negated
  else if comparesByParts leftType then
    let pattern := Support.equal ++ "(%e, %e, " ++ quote leftType.text ++ ")"
    return (← render self pattern [left, right]).negateIf negated
  else plainEquality self negated left right leftType

/-- `left == right`, `left != right` -/
def equality (self : Lowering) (e : Expr) (negated : Bool) (left right : Expr) :
    LowerM Fragment := do
  -- `nil == x` asks the same as `x == nil`.
  if (← isNil left) && !(← isNil right) then equalityOf self e negated right left
  else equalityOf self e negated left right

/-! ### Order -/

/-- `left < right` and the other orderings. -/
def ordering (self : Lowering) (op : BinaryOp) (left right : Expr) : LowerM Fragment := do
  -- Turning the sign bits over takes the unsigned order to the signed one.
  let flipped := "(%e ~ " ++ minInteger ++ ")"
  let pattern :=
    if (← typeOf left).basicKind? == some .uint64 then flipped ++ " %t " ++ flipped else "%e %t %e"
  renderParen self pattern [left, op, right]

/-! ### Arithmetic -/

/-- An operator that Lua has as well. -/
def plainOperator (self : Lowering) (op : BinaryOp) (left right : Expr) : LowerM Fragment :=
  renderParen self "%e %t %e" [left, op, right]

/-- A function of the library of two operands. -/
def binaryCall (self : Lowering) (helper : String) (left right : Expr) : LowerM Fragment :=
  render self (helper ++ "(%e, %e)") [left, right]

/-- An operator on complex numbers. -/
def complexArithmetic (self : Lowering) (e : Expr) (op : BinaryOp) (left right : Expr) :
    LowerM Fragment :=
  match op with
  | .add | .sub =>
    render self (Support.complex ++ "(%1r %3t %2r, %1i %3t %2i)") [left, right, op]
  | .mul =>
    render self (Support.complex ++ "(%1r * %2r - %1i * %2i, %1r * %2i + %1i * %2r)") [left, right]
  | .quo => binaryCall self Support.divComplex left right
  | _ => unsupported e (.operatorOnComplex op)

/-- A shift to the left. A constant count that is not below the width leaves nothing, but the
operand is still evaluated if that may have effects. -/
def shiftLeft (self : Lowering) (left right : Expr) (kind : Kind) : LowerM Fragment := do
  let width : Int := kind.bitWidth?.getD 64
  if (← intConstantOf right).any (width ≤ ·) then
    if ← isRepeatableExpr left then return .atom "0" else renderParen self "%e & 0" [left]
  else return cutToWidth (← renderParen self "%e << %f" [left, right]) kind

/-- An operator on integers of a kind. -/
def integerArithmetic (self : Lowering) (e : Expr) (op : BinaryOp) (left right : Expr)
    (kind : Kind) : LowerM Fragment := do
  match op with
  | .add | .sub | .mul => return cutToWidth (← plainOperator self op left right) kind
  | .quo =>
    let helper := if kind = .uint64 then Support.uintDiv else Support.intDiv
    return cutToWidth (← binaryCall self helper left right) kind
  | .rem => binaryCall self (if kind = .uint64 then Support.uintMod else Support.intMod) left right
  | .shl => shiftLeft self left right kind
  | .shr =>
    if kind.isUnsigned then renderParen self "%e >> %f" [left, right]
    else render self (Support.arshift ++ "(%e, %f)") [left, right]
  | .and | .or | .xor => plainOperator self op left right
  | .andNot => renderParen self "%e & ~%e" [left, right]
  | _ => unsupported e (.operatorOnIntegers op)

/-- An operator on values of a kind. -/
def arithmeticOn (self : Lowering) (e : Expr) (op : BinaryOp) (left right : Expr) (type : GoType)
    (kind : Kind) : LowerM Fragment :=
  if kind.isString then
    if op = .add then renderParen self "%e .. %e" [left, right]
    else unsupported e (.operatorOnStrings op)
  else if kind.isComplex then complexArithmetic self e op left right
  else if kind.isFloat then
    match op with
    | .add | .sub | .mul | .quo => plainOperator self op left right
    | _ => unsupported e (.operatorOnFloats op)
  else if kind.isInteger then integerArithmetic self e op left right kind
  else unsupported e (.operatorOn op type)

/-- An operator whose result has the type of its operands. -/
def arithmetic (self : Lowering) (e : Expr) (op : BinaryOp) (left right : Expr) :
    LowerM Fragment := do
  let type ← typeOf e
  match type.basicKind? with
  | none => unsupported e (.operatorOn op type)
  | some kind => arithmeticOn self e op left right type kind

/-! ### Operators -/

/-- A binary expression. -/
def binary (self : Lowering) (e : Expr) (op : BinaryOp) (left right : Expr) : LowerM Fragment :=
  match op with
  | .logicalAnd | .logicalOr => logical self e op left right
  | .eql => equality self e false left right
  | .neq => equality self e true left right
  | .lss | .leq | .gtr | .geq => ordering self op left right
  | op => arithmetic self e op left right

end GoLua.Lower
