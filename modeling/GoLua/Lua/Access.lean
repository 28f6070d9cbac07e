import GoLua.Lua.Literal
import GoLua.Lua.Name

/-!
# Access chains

The suffix that follows a value down a path of field names: `.a.b` where Lua can spell the names,
and a bracketed string where it cannot. A struct is built with bracketed strings throughout, and
both spellings read the same key.
-/

namespace GoLua.Lua

/-- One step of a chain. -/
def accessStep (name : String) : String :=
  if isName name then "." ++ name else "[" ++ quote name ++ "]"

/-- The suffix that follows a path of names. -/
def accessChain (names : List String) : String :=
  String.join (names.map accessStep)

end GoLua.Lua
