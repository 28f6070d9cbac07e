import GoLua.Emit.LowerM
import GoLua.Lua.Integer
import GoLua.Lua.Literal
import GoLua.Lua.Support

/-!
# Constants

A node whose value is known is not lowered by its form but written as a literal. The kind of its
type decides which view of the value counts, and the value has to have that view.

An integer is wrapped into its kind. Where a type is desired, an integer kind of it takes the place
of the node's own, so that an untyped constant comes out in the width in which it is used.
-/

namespace GoLua

open Lua

/-- The kind that an integer constant is wrapped into. -/
def targetKind (kind : Kind) (desired : Option GoType) : Kind :=
  ((desired.bind GoType.basicKind?).filter Kind.isInteger).getD kind

/-- An integer literal; a negative one has an operator at its top. -/
def integerFragment (n : Int) : Fragment :=
  ⟨intLiteral n, n < 0⟩

/-- A float literal; a negative one has an operator at its top. -/
def floatFragment (x : Double) : Fragment :=
  ⟨floatLiteral x, x.isBelowZero⟩

/-- A constant in the view of a kind, if it has that view; none if the kind has no constants. -/
def Constant.inKind (c : Constant) (kind : Kind) (desired : Option GoType) :
    Option (Option Fragment) :=
  if kind.isTruth then some (c.toBool?.map fun b => .atom (truthWord b))
  else if kind.isInteger then
    some (c.toInt?.map fun n => integerFragment (wrapInteger n (targetKind kind desired)))
  else if kind.isFloat then some (c.toFloat?.map floatFragment)
  else if kind.isComplex then
    some (c.re?.bind fun re => c.im?.map fun im =>
      .atom (callText Support.complex [floatLiteral re, floatLiteral im]))
  else if kind.isString then some (c.toString?.map fun s => .atom (quote s))
  else none

/-- The literal of a constant of a type that stands at a location. -/
def Constant.lower (c : Constant) (type : GoType) (desired : Option GoType) (location : Location) :
    Except LowerError Fragment :=
  match type.basicKind? with
  | none => .error (.unsupported (.constantOfType type) location)
  | some kind =>
    match c.inKind kind desired with
    | none => .error (.unsupported (.constantOfKind kind) location)
    | some none => .error (.unsupported (.constantMisfit c type) location)
    | some (some fragment) => .ok fragment

end GoLua
