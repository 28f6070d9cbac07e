import GoLua.Go.Constant
import GoLua.Json.Number

/-!
# Constants in data files

The JSON form of constants: an object with a single member, whose key says what sort of value it is.
Integers are those of a signed cell of 128 bits. A float may be written as an integer.
-/

namespace GoLua

/-- A double, as a number with a point or an exponent. -/
def Double.toJson (x : Double) : Json := .real x

namespace Constant

def toJson : Constant → Json
  | .bool b => .variant "Bool" (.bool b)
  | .int n => .variant "Int" (.ofInt n)
  | .float x => .variant "Float" x.toJson
  | .complex re im => .variant "Complex" (.array [re.toJson, im.toJson])
  | .string s => .variant "String" (.string s)

def ofJson? (j : Json) : Option Constant :=
  match j.variant? with
  | none => none
  | some (tag, ⟨body, _⟩) =>
    match tag with
    | "Bool" => body.bool?.map .bool
    | "Int" => body.int128?.map .int
    | "Float" => body.double?.map .float
    | "Complex" =>
      match body.list? Json.double? with
      | some [re, im] => some (.complex re im)
      | _ => none
    | "String" => body.string?.map .string
    | _ => none

end Constant

end GoLua
