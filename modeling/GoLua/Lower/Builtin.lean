import GoLua.Lower.Index

/-!
# Predeclared functions

Calls of the functions that Go predeclares. Each is written as an operator, an access or a call of
the library, by the type of its operand.
-/

namespace GoLua.Lower

open Lua

/-- An argument of a predeclared function that has to be there. -/
def builtinArg (call : Expr) (name : String) (args : List Expr) (i : Nat) : LowerM Expr :=
  match args[i]? with
  | some e => return e
  | none => unsupported call (.builtinArguments name args.length)

/-- The length of an array, or of the array that a pointer points to. -/
def fixedLen? (type : GoType) : Option Nat :=
  type.throughPointer.arrayLen?

/-- A length that is known, with the operand evaluated all the same. -/
def fixedLength (self : Lowering) (operand : Expr) (len : Nat) : LowerM Fragment :=
  render self ("(select(2, %e, " ++ toString len ++ "))") [operand]

/-- `new(T)` -/
def newValue (call : Expr) : LowerM Fragment := do
  let type ← typeOf call
  match type.pointerElem? with
  | none => unsupported call (.newReturning type)
  | some elem =>
    let zero ← zeroFor call elem
    return .atom (if elem.isAggregate then zero
      else callText Support.newDataPointer [zero, quote type.text])

/-- `make([]T, len)`, `make([]T, len, cap)` -/
def makeSlice (self : Lowering) (call : Expr) (args : List Expr) (elem : GoType) :
    LowerM Fragment := do
  let zero ← zeroFor call elem
  let len ← builtinArg call "make" args 1
  let start := Support.makeSlice ++ "(" ++ quote elem.text ++ ", " ++ zero ++ ", "
  match (args[2]? : Option Expr) with
  | some cap => render self (start ++ "%f, %f)") [len, cap]
  | none => render self (start ++ "%f)") [len]

/-- `make(map[K]V)`, `make(map[K]V, size)`; a size is checked unless it is constant. -/
def makeMap (self : Lowering) (args : List Expr) (key elem : GoType) : LowerM Fragment := do
  let empty := mapText [] key elem
  match args[1]? with
  | none => return .atom empty
  | some size =>
    if ← isConstant size then return .atom empty
    else
      renderParen self ("(%1f < 0 or %1f > 2147483647) and " ++ Support.runtimeError ++
        "(\"makemap: size out of range\") or " ++ empty) [size]

/-- `make(chan T)`, `make(chan T, size)` -/
def makeChan (self : Lowering) (args : List Expr) (elem : GoType) : LowerM Fragment :=
  match (args[1]? : Option Expr) with
  | some size => render self (Support.newChan ++ "(" ++ quote elem.text ++ ", %f)") [size]
  | none => return .atom (callText Support.newChan [quote elem.text, "0"])

/-- `make(T, ...)` -/
def make (self : Lowering) (call : Expr) (args : List Expr) : LowerM Fragment := do
  let type ← typeOf (← builtinArg call "make" args 0)
  match type.underlying with
  | .slice elem => makeSlice self call args elem
  | .map key elem => makeMap self args key elem
  | .chan elem => makeChan self args elem
  | other => unsupported call (.makeOf other)

/-- `len(x)` -/
def len (self : Lowering) (call : Expr) (args : List Expr) : LowerM Fragment := do
  let operand ← builtinArg call "len" args 0
  let type ← typeOf operand
  match fixedLen? type with
  | some len => fixedLength self operand len
  | none =>
    match type.underlying with
    | .basic kind =>
      if kind.isString then renderParen self "#%e" [operand]
      else unsupported call (.lenOf (.basic kind))
    | .slice _ | .map _ _ => renderParen self "#%e" [operand]
    | .chan _ => renderParen self "#%e.buffer" [operand]
    | other => unsupported call (.lenOf other)

/-- `cap(x)` -/
def cap (self : Lowering) (call : Expr) (args : List Expr) : LowerM Fragment := do
  let operand ← builtinArg call "cap" args 0
  let type ← typeOf operand
  match fixedLen? type with
  | some len => fixedLength self operand len
  | none =>
    match type.underlying with
    | .slice _ | .chan _ => render self "%e.__capacity" [operand]
    | other => unsupported call (.capOf other)

/-- `append(slice, more...)` with the two slices. -/
def appendAll (self : Lowering) (slice more : Expr) : LowerM Fragment := do
  let operand :=
    if (← typeOf more).isString then Support.stringToBytes ++ "(%e)" else "%e"
  render self (Support.appendSlice ++ "(%e, " ++ operand ++ ")") [slice, more]

/-- `append(slice, values...)` -/
def append (self : Lowering) (call : Expr) (args : List Expr) (ellipsis : Bool) :
    LowerM Fragment := do
  match args with
  | [] => unsupported call (.builtinArguments "append" 0)
  | [slice] => self slice none
  | slice :: more :: rest =>
    let type ← typeOf call
    match type.underlying with
    | .slice elem =>
      if ellipsis then appendAll self slice more
      else
        let first ← self slice none
        let values ← (more :: rest).mapM fun e => implicitCopy self e elem
        let operands := first :: values
        -- The slice and the values are lowered by now; the pattern only joins them.
        let placeholders := Text.commaSeparated (operands.map fun _ => "%e")
        render self (Support.append ++ "(" ++ placeholders ++ ")") (operands.map .lowered)
    | _ => unsupported call (.appendTo type)

/-- `delete(map, key)` -/
def delete (self : Lowering) (call : Expr) (args : List Expr) : LowerM Fragment := do
  let map ← builtinArg call "delete" args 0
  let key ← builtinArg call "delete" args 1
  match (← typeOf map).underlying with
  | .map keyType _ =>
    let mapText ← self map none
    let keyText ← mapKey self key keyType
    render self "%e('delete', %e)" [mapText, keyText]
  | other => unsupported call (.deleteFrom other)

/-- `copy(target, source)` -/
def copy (self : Lowering) (call : Expr) (args : List Expr) : LowerM Fragment := do
  let target ← builtinArg call "copy" args 0
  let source ← builtinArg call "copy" args 1
  let helper := if (← typeOf source).isString then Support.copyString else Support.copySlice
  render self (helper ++ "(%e, %e)") [target, source]

/-- `print(values...)`, `println(values...)` -/
def print (self : Lowering) (helper : String) (args : List Expr) : LowerM Fragment := do
  return .atom (callText helper (← args.mapM fun e => Fragment.text <$> self e none))

/-- `complex(re, im)` -/
def complexOf (self : Lowering) (call : Expr) (args : List Expr) : LowerM Fragment := do
  let re ← builtinArg call "complex" args 0
  let im ← builtinArg call "complex" args 1
  let re ← implicit self re (.basic .float64)
  let im ← implicit self im (.basic .float64)
  return .atom (callText Support.complex [re.text, im.text])

/-- A call of the predeclared function with the given name. -/
def builtin (self : Lowering) (call : Expr) (name : String) (args : List Expr) (ellipsis : Bool) :
    LowerM Fragment := do
  match name with
  | "new" => newValue call
  | "make" => make self call args
  | "len" => len self call args
  | "cap" => cap self call args
  | "panic" =>
    let value ← implicit self (← builtinArg call name args 0) .anyInterface
    return .atom (callText Support.panic [value.text])
  | "append" => append self call args ellipsis
  | "delete" => delete self call args
  | "copy" => copy self call args
  | "print" => print self Support.print args
  | "println" => print self Support.println args
  | "complex" => complexOf self call args
  | "real" => render self "%r" [← builtinArg call name args 0]
  | "imag" => render self "%i" [← builtinArg call name args 0]
  | "recover" => return .atom (callText Support.recover [])
  | "close" => render self (Support.close ++ "(%e)") [← builtinArg call name args 0]
  | other => fail (.unknownBuiltin other call.location)

end GoLua.Lower
