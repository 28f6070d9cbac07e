import GoLua.Lower.Constant
import GoLua.Lower.Object
import GoLua.Lower.Zero

/-!
# Identifiers

An identifier that stands for a value is written as the name of the entity that it is bound to. Two
sorts are special: `nil` is written as the zero value of the type that it has where it stands, and a
few entities of the host bridge are written as what the bridge calls them.
-/

namespace GoLua.Lower

open Lua

/-- The zero value of a type, needed for an expression. -/
def zeroFor (e : Expr) (type : GoType) : LowerM String :=
  ofExcept (type.zeroAt e.location)

/-- What the host bridge calls one of its entities. -/
def hostEntity? (config : Config) (obj : Object) : Option String :=
  if config.isHostPackage obj.package then
    match obj.name with
    | "Global" => some Support.global
    | "Module" => some Support.module
    | "Undefined" => some "nil"
    | _ => none
  else none

/-- The predeclared `nil` as a value of a type. -/
def nilValue (e : Expr) (type : GoType) : LowerM Fragment := do
  -- The host knows no typed nil.
  if ← config (·.isHostObject type) then return .atom "nil"
  match type.underlying with
  | .basic .unsafePointer => return .atom "0"
  | .basic .untypedNil => return .atom "nil"
  | .slice _ | .pointer _ | .map _ _ | .interface _ | .func _ | .chan _ =>
    return .atom (← zeroFor e type)
  | other => unsupported e (.nilOf other)

/-- An identifier, or the second part of a qualified name, with the given name. -/
def identifier (e : Expr) (name : String) : LowerM Fragment := do
  if name = "_" then unsupported e .blankAsValue
  else
    let obj ← objectOf e
    match ← config (hostEntity? · obj) with
    | some text => return .atom text
    | none =>
      match obj.kind with
      | .var | .const | .func => return .atom (← config (objectName · obj))
      | .nil => nilValue e (← typeOf e)
      | .typeName | .builtin | .pkgName => unsupported e (.objectAsValue obj.kind obj.name)

end GoLua.Lower
