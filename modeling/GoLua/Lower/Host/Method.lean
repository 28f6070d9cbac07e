import GoLua.Lower.Host.Value

/-!
# Methods of host objects

Calls of the methods of the host object type reach the object itself: they read, write and delete
its properties, call it, or convert it. Methods that only have an effect leave an assignment among
the pending statements and lower to no text at all.

A property whose name is a constant that Lua can spell is reached by a dot, any other by an index.
-/

namespace GoLua.Lower

open Lua

/-- An argument of a method that has to be there. -/
def hostArg (call : Expr) (args : List Expr) (i : Nat) : LowerM Expr :=
  match args[i]? with
  | some e => return e
  | none => unsupported call (.hostMethodArguments args.length)

/-- A constant string that can stand after a dot. -/
def nameConstant? (e : Expr) : LowerM (Option String) := do
  return ((← constantOf e).bind Constant.toString?).filter isName

/-- A value as the index of a property. -/
def propertyIndex (key : String) : String :=
  "[" ++ Support.externalize ++ "(" ++ key ++ ", \"string\")]"

/-- A property of an object. -/
def property (self : Lowering) (object : String) (key : Expr) : LowerM String := do
  match ← nameConstant? key with
  | some name => return object ++ "." ++ name
  | none => return object ++ propertyIndex (← self key none).text

/-- The arguments that are passed on to the host, from the place `start`; those of a call with an
ellipsis are unpacked by the host. -/
def passedArgs (self : Lowering) (call : Expr) (args : List Expr) (start : Nat) (ellipsis : Bool) :
    LowerM String := do
  if ellipsis then
    return "table.unpack(" ++ (← externalized self (← hostArg call args start)).text ++ ")"
  else externalizedArgs self (args.drop start)

/-- A comma and a blank before arguments that are there. -/
def separator (args : String) : String :=
  if args.isEmpty then "" else ", "

/-- A call of a method of a property. -/
def callProperty (self : Lowering) (call : Expr) (recv : Fragment) (args : List Expr)
    (ellipsis : Bool) : LowerM Fragment := do
  let name ← hostArg call args 0
  match ← nameConstant? name with
  | some id =>
    let rest ← passedArgs self call args 1 ellipsis
    return .atom (recv.callable ++ ":" ++ id ++ "(" ++ rest ++ ")")
  | none =>
    let key ← self name none
    let rest ← passedArgs self call args 1 ellipsis
    render self ("%1e" ++ propertyIndex "%2e" ++ "(%1e" ++ separator rest ++ "%3s)")
      [recv, key, .text rest]

/-- Leaves the assignment of a property and lowers to no text. -/
def assigned (write : HostWrite) (target value : String) : LowerM Fragment := do
  leave (.assign target value) none (some write)
  return .atom ""

/-- The kind that a conversion method converts a host object to. -/
def conversionMethod? : String → Option GoType
  | "Bool" => some (.basic .bool)
  | "String" => some (.basic .string)
  | "Int" => some (.basic .int)
  | "Int64" => some (.basic .int64)
  | "Uint64" => some (.basic .uint64)
  | "Float" => some (.basic .float64)
  | "Interface" => some .anyInterface
  | _ => none

/-- A call of a method of the host object type. -/
def hostMethod (self : Lowering) (call : Expr) (recv : Fragment) (method : String)
    (args : List Expr) (ellipsis : Bool) : LowerM Fragment := do
  let object := recv.callable
  match method with
  | "Get" => return .atom (← property self object (← hostArg call args 0))
  | "Set" =>
    let key ← hostArg call args 0
    let value ← hostArg call args 1
    -- The property is lowered before the value, as it is written.
    let target ← property self object key
    assigned (.set object) target (← externalized self value).text
  | "Delete" => assigned (.delete object) (← property self object (← hostArg call args 0)) "nil"
  | "Length" => return .atom (Support.parseInt ++ "(#" ++ object ++ ")")
  | "Index" => render self "%s[%e]" [.text object, ← hostArg call args 0]
  | "SetIndex" =>
    let index ← hostArg call args 0
    let value ← hostArg call args 1
    let place ← self index none
    assigned (.setIndex object) (object ++ "[" ++ place.text ++ "]")
      (← externalized self value).text
  | "Call" => callProperty self call recv args ellipsis
  | "Invoke" => return .atom (object ++ "(" ++ (← passedArgs self call args 0 ellipsis) ++ ")")
  | "New" =>
    let rest ← passedArgs self call args 0 ellipsis
    return .atom (Support.newHostObject ++ "(" ++ recv.text ++ separator rest ++ rest ++ ")")
  | "Unsafe" => return recv
  | other =>
    match conversionMethod? other with
    | some type => config (internalized · recv type)
    | none => unsupported call (.hostMethod other)

end GoLua.Lower
