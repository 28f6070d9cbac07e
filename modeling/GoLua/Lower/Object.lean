import GoLua.Config
import GoLua.Go.Object
import GoLua.Lua.Name

/-!
# Names of declared entities

Under which name emitted code reaches an entity of the program. An entity of another package is
qualified by the last segment of the package's path. An escaping variable lives in a box of one
element, and its name is the name of that element.
-/

namespace GoLua

/-- The name of an entity, qualified if it belongs to another package. -/
def qualifiedName (config : Config) (obj : Object) : String :=
  match obj.package with
  | none => Lua.safeName obj.name
  | some package =>
    if package = config.currentPackage then Lua.safeName obj.name
    else packageName package ++ "." ++ Lua.safeName obj.name

/-- The text that reads a variable, constant or function. -/
def objectName (config : Config) (obj : Object) : String :=
  if obj.escaping && obj.kind == .var then qualifiedName config obj ++ "[0]"
  else qualifiedName config obj

/-- A text without the index of a box at its end. -/
def dropBoxIndex (name : String) : String :=
  match name.toList.reverse with
  | ']' :: '0' :: '[' :: r => String.ofList r.reverse
  | _ => name

/-- The box that holds an escaping variable. -/
def boxName (config : Config) (obj : Object) : String :=
  dropBoxIndex (objectName config obj)

/-- The key under which an accessor is kept: a name with everything that is not part of a name
replaced. -/
def accessorKey (name : String) : String :=
  String.ofList (name.toList.map fun c => if Lua.isNameChar c then c else '_')

end GoLua
