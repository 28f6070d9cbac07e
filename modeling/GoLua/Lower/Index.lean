import GoLua.Lower.Conversion

/-!
# Indexing and slicing

An index into an array, slice or string is checked against the length where it runs, unless it is a
constant into an array, which was checked before. A map is a function of the library, called with
the name of the operation; its keys are strings, so a key of another basic kind is made one.
-/

namespace GoLua.Lower

open Lua

/-- An access at operand 2 that fails unless `0 ≤ index < len`. -/
def rangeChecked (len access : String) : String :=
  "((%2f < 0 or %2f >= " ++ len ++ ") and " ++ Support.runtimeError ++
    "(\"index out of range\") or " ++ access ++ ")"

/-- The element of operand 1 at operand 2. -/
def elementAccess : String := "%1e[%2f]"

/-- A key as maps of a key type hold it. -/
def mapKey (self : Lowering) (key : Expr) (keyType : GoType) : LowerM Fragment := do
  let type ← typeOf key
  -- The message is collected, and lowering goes on as if the key were allowed.
  if ← config (·.isHostObject type) then
    reportError "cannot use js.Object as map key" key.span
  let converted ← implicit self key keyType
  return if keyType.basicKind?.any fun k => !k.isString then
      .atom ("tostring(" ++ converted.text ++ ")")
    else converted

/-- The element of a map, or its zero value; in a comma-ok form also whether it is there. -/
def mapElement (self : Lowering) (e base index : Expr) (key elem : GoType) : LowerM Fragment := do
  let keyText ← mapKey self index key
  let zero ← zeroFor e elem
  let method := if (← typeOf e).isTuple then "getok" else "get"
  render self ("%1e('" ++ method ++ "', %2e, %3s)") [base, keyText, .text zero]

/-- The length of an array, or of the array that a pointer points to. -/
def indexedArrayLen? (base : GoType) : Option Nat :=
  match base.underlying with
  | .array _ len => some len
  | .pointer elem => elem.arrayLen?
  | _ => none

/-- `base[index]` -/
def index (self : Lowering) (e base index : Expr) : LowerM Fragment := do
  let baseType ← typeOf base
  let checkedBefore := (← isConstant index) && baseType.isArray
  match indexedArrayLen? baseType with
  | some len =>
    if checkedBefore then render self elementAccess [base, index]
    else render self (rangeChecked (toString len) elementAccess) [base, index]
  | none =>
    match baseType.underlying with
    | .slice _ => render self (rangeChecked "#%1e" elementAccess) [base, index]
    | .map key elem => mapElement self e base index key elem
    | .basic kind =>
      if kind.isString then
        render self (rangeChecked "#%1e" "string.byte(%1e, %2f + 1)") [base, index]
      else unsupported e (.indexInto (.basic kind))
    | other => unsupported e (.indexInto other)

/-- The call that slices a value, up to its bounds; none if it cannot be sliced. -/
def slicer? (base : GoType) : Option String :=
  let ofArray := Support.subslice ++ "(" ++ Support.sliceOfArray ++ "(%e)"
  match base.underlying with
  | .basic kind => if kind.isString then some (Support.substring ++ "(%e") else none
  | .slice _ => some (Support.subslice ++ "(%e")
  | .array _ _ => some ofArray
  | .pointer elem => if elem.isArray then some ofArray else none
  | _ => none

/-- `base[low:high:max]`; a missing lower bound is zero. -/
def slice (self : Lowering) (e base : Expr) (low high max : Option Expr) : LowerM Fragment := do
  let baseType ← typeOf base
  match slicer? baseType with
  | none => unsupported e (.sliceOf baseType.underlying)
  | some slicer =>
    -- A third bound is only written where there is a second one.
    let upper := high.toList ++ max.toList
    let bounds := (if low.isSome then ", %f" else ", 0") :: upper.map fun _ => ", %f"
    render self (slicer ++ String.join bounds ++ ")") ((base :: low.toList ++ upper).map .expr)

end GoLua.Lower
