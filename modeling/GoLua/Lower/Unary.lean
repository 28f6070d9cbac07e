import GoLua.Lower.Selector

/-!
# Unary operators, addresses and receives

Emitted code has no addresses. An aggregate is its own reference; any other place is pointed at by
an *accessor*, a getter and a setter for the place. Two addresses of one place have to be the same
pointer, so an accessor is kept where it can be found again: for a variable in a name of its own,
for an escaping variable in its box, for a field in the struct.

A receive from a channel may suspend. It becomes a marked call of the library, made of new nodes,
and is lowered as any other call is.
-/

namespace GoLua.Lower

open Lua

/-! ### Addresses -/

/-- A getter and a setter for a place. -/
def accessorOf (place : String) : String :=
  Support.newAccessor ++ "(function() return " ++ place ++ " end, function(_v) " ++ place ++
    " = _v end)"

/-- The accessor of a place, kept under the text `cache`. -/
def cachedAccessor (cache place : String) : String :=
  "(" ++ cache ++ " or (function() " ++ cache ++ " = " ++ accessorOf place ++ "; return " ++
    cache ++ " end)())"

/-- The accessor of a variable. -/
def variableAccessor (obj : Object) : LowerM Fragment := do
  if obj.escaping then
    let box ← config (boxName · obj)
    return .atom (cachedAccessor (box ++ ".__ptr") (box ++ "[0]"))
  else
    let name ← config (objectName · obj)
    return .atom (cachedAccessor (← accessorBox (accessorKey name)) name)

/-- The accessor of a field, kept in the struct under the names on the way to it. -/
def fieldAccessor (self : Lowering) (base : Expr) (path : FieldPath) : LowerM Fragment :=
  let cache := "%1e.__ptr_" ++ accessorKey ("_".intercalate path.names)
  render self (cachedAccessor cache ("%1e" ++ accessChain path.names)) [base]

/-- The address of a value that is no aggregate, with a pointer type of its own. -/
def placeAddress (self : Lowering) (e target : Expr) (type : GoType) : LowerM Fragment := do
  match target with
  -- A literal that is no aggregate has no place of its own yet; one is made for it.
  | .compositeLit _ _ =>
    render self (Support.newDataPointer ++ "(%e, " ++ quote type.text ++ ")") [target]
  | .ident _ _ => variableAccessor (← objectOf target)
  | .selector _ base sel =>
    match ← selectionOf target with
    | none => variableAccessor (← objectOf sel)
    | some selection =>
      if selection.kind = .fieldVal then
        fieldAccessor self base (← pathFrom selection.recv selection.index target.span)
      else unsupported e .addressOfMethod
  | .index _ base index =>
    render self (Support.indexPtr ++ "(%e, %e, " ++ quote type.text ++ ")") [base, index]
  -- `&*p` is `p`.
  | .star _ inner => self inner none
  | _ => unsupported e (.addressOf target.describe)

/-- `&operand` -/
def addressOf (self : Lowering) (e operand : Expr) : LowerM Fragment := do
  let type ← typeOf e
  if ← config (·.isHostObject type) then render self "%e.object" [operand]
  else if (← typeOf operand).isAggregate then self operand none
  else placeAddress self e operand.unparen type

/-- `*operand` -/
def dereference (self : Lowering) (e operand : Expr) : LowerM Fragment := do
  let pointer ← typeOf operand
  if ← config (·.isHostObject pointer) then wrappedHostObject self operand
  else if (← typeOf e).isAggregate then self operand none
  else render self "%e.get()" [operand]

/-! ### Receives -/

/-- `<-operand`; without the comma-ok form, the first of two results. -/
def receive (self : Lowering) (e operand : Expr) : LowerM Fragment := do
  let chanType ← typeOf operand
  let commaOk := (← typeOf e).isTuple
  match chanType.underlying with
  | .chan elem =>
    let result := GoType.tuple [elem, .basic .bool]
    let type := GoType.func { params := [chanType], results := [result] }
    let callee ← synthesizeUse Support.recv (.func Support.recv type) type e.span
    -- The call always has both results; without the comma-ok form the second is dropped.
    let node ← synthesizeNode result e.span
    markSuspending node.id
    let received ← self (.call node callee [operand] false) none
    return if commaOk then received else .atom (received.text ++ "[0]")
  | other => unsupported e (.receiveFrom other)

/-! ### Operators -/

/-- A unary operator on a value of a basic type. -/
def unaryOperator (self : Lowering) (e operand : Expr) (op : UnaryOp) : LowerM Fragment := do
  let type ← typeOf operand
  match type.basicKind? with
  | none => unsupported e (.unaryOn op type)
  | some kind =>
    match op with
    | .neg =>
      if kind.isComplex then render self (Support.complex ++ "(-%1r, -%1i)") [operand]
      else return cutToWidth (← renderParen self "-%e" [operand]) kind
    | .bitNot => return cutToWidth (← renderParen self "~%e" [operand]) kind
    | .not => renderParen self "not %e" [operand]
    | _ => self operand none

/-- A unary expression. -/
def unary (self : Lowering) (e : Expr) (op : UnaryOp) (operand : Expr) : LowerM Fragment :=
  match op with
  | .addrOf => addressOf self e operand
  | .recv => receive self e operand
  | op => unaryOperator self e operand op

end GoLua.Lower
