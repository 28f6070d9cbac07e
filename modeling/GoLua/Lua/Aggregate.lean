import GoLua.Go.Type.Text
import GoLua.Lua.Literal
import GoLua.Lua.Support

/-!
# Building aggregates

The expressions that build the run-time form of arrays, slices, maps and structs. Elements are
counted from zero, which a Lua table has to be told with its first element. The library is given the
names of the types, except for the elements of an array, of which it only wants the tag.
-/

namespace GoLua.Lua

open Text

/-- The inside of a table whose first place is zero. -/
def zeroBased (elements : List String) : String :=
  if elements.isEmpty then "" else "[0]=" ++ commaSeparated elements

/-- An array of a fixed length. -/
def arrayText (elements : List String) (elem : GoType) (len : Nat) : String :=
  callText Support.newArray [braced (zeroBased elements), quote elem.tag, toString len]

/-- A slice of the given elements. -/
def sliceText (elements : List String) (elem : GoType) : String :=
  callText Support.newSlice [quote elem.text, braced (zeroBased elements)]

/-- The slice that is `nil`. -/
def nilSliceText (elem : GoType) : String :=
  callText Support.newSlice [quote elem.text, "nil"]

/-- A map of the given entries. -/
def mapText (entries : List String) (key elem : GoType) : String :=
  callText Support.newMap [quote key.text, quote elem.text, braced (commaSeparated entries)]

/-- The map that is `nil`. -/
def nilMapText (key elem : GoType) : String :=
  callText Support.newMap [quote key.text, quote elem.text, "nil"]

/-- A struct with the values of its fields. -/
def structText (type : GoType) (names values : List String) : String :=
  let entry (name value : String) := "[" ++ quote name ++ "]=" ++ value
  callText Support.newInstance
    [quote type.text, braced (commaSeparated (List.zipWith entry names values))]

end GoLua.Lua
