import GoLua.Failure
import GoLua.Lua.Aggregate

/-!
# Zero values

What a variable of a type holds before anything is assigned to it. The zero value depends on the
type alone, so a literal may ask for it once and use it for every slot that it leaves open.

Every type has one except a tuple. An aggregate is built anew wherever its zero value is written,
down to the last element; a declared struct is built under its own name.
-/

namespace GoLua

open Lua

/-- The zero value of a kind. -/
def Kind.zero (k : Kind) : String :=
  if k.isComplex then callText Support.complex ["0.0", "0.0"]
  else if k.isTruth then "false"
  else if k.isInteger || k == .unsafePointer then "0"
  else if k.isFloat then "0.0"
  else if k.isString then "\"\""
  else "nil"

mutual

/-- The zero value of a type that was declared as `declared`; the type without one if there is
none. -/
def GoType.zeroAs : GoType → GoType → Except GoType String
  | .named _ definition, declared => definition.zeroAs declared
  | .basic k, _ => .ok k.zero
  | .array elem len, _ =>
    (elem.zeroAs elem).map fun zero => arrayText (List.replicate len zero) elem len
  | .slice elem, _ => .ok (nilSliceText elem)
  | .map key elem, _ => .ok (nilMapText key elem)
  | .struct fields, declared =>
    (fieldZeros fields).map fun zeros => structText declared (fields.map Field.name) zeros
  | .pointer _, _ | .interface _, _ => .ok "nil"
  | .func _, _ => .ok Support.nilPointerError
  | .chan _, _ => .ok Support.chanNil
  | .tuple _, declared => .error declared
termination_by structural t => t

/-- The zero values of several fields. -/
def fieldZeros : List Field → Except GoType (List String)
  | [] => .ok []
  | f :: fs => do
    let zero ← f.zero
    let zeros ← fieldZeros fs
    return zero :: zeros
termination_by structural fs => fs

/-- The zero value of a field. -/
def Field.zero : Field → Except GoType String
  | ⟨_, type, _, _⟩ => type.zeroAs type
termination_by structural f => f

end

/-- The zero value of a type. -/
def GoType.zero (t : GoType) : Except GoType String :=
  t.zeroAs t

/-- The zero value of a type that is needed at a location. The zero value of an array writes out all
its elements, whatever its length is; the program stops when it cannot hold a text that long. -/
def GoType.zeroAt (t : GoType) (location : Location) : Except LowerError String :=
  t.zero.mapError fun culprit => .unsupported (.zeroOf culprit) location

end GoLua
