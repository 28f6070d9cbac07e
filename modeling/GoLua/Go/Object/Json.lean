import GoLua.Go.Object
import GoLua.Go.Type.Json

/-!
# Objects and selections in data files

The JSON forms of declared entities and of resolved selectors. An object without a package, or one
that does not escape, may leave that out.
-/

namespace GoLua

namespace Object

def toJson (obj : Object) : Json :=
  .object [("name", .string obj.name), ("kind", .string obj.kind.label), ("type", obj.type.toJson),
    ("package", .ofOption .string obj.package), ("escaping", .bool obj.escaping)]

def ofJson? (j : Json) : Option Object := do
  let name ← j.required? "name" Json.string?
  let kind ← j.required? "kind" fun k => k.label?.bind ObjectKind.ofLabel?
  let type ← j.required? "type" GoType.ofJson?
  let package ← j.optional? "package" Json.string?
  let escaping ← j.withDefault? "escaping" false Json.bool?
  return { name, kind, type, package, escaping }

end Object

namespace Selection

def toJson (s : Selection) : Json :=
  .object [("kind", .string s.kind.label), ("recv", s.recv.toJson),
    ("index", .array (s.index.map .nat)), ("obj", s.obj.toJson), ("type", s.type.toJson)]

def ofJson? (j : Json) : Option Selection := do
  let kind ← j.required? "kind" fun k => k.label?.bind SelectionKind.ofLabel?
  let recv ← j.required? "recv" GoType.ofJson?
  let index ← j.required? "index" (Json.list? Json.word64?)
  let obj ← j.required? "obj" Object.ofJson?
  let type ← j.required? "type" GoType.ofJson?
  return { kind, recv, index, obj, type }

end Selection

end GoLua
