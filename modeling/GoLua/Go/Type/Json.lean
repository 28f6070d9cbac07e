import GoLua.Go.Type
import GoLua.Json.Value

/-!
# Types in data files

The JSON form of types. A type is an object with a single member, whose key is the constructor; a
kind is its label. Every field is written. When read, a field's embedding and host tag and a
signature's receiver and variadicity may be missing, and members with other keys are ignored.
-/

namespace GoLua

/-- A kind by its label. -/
def Kind.toJson (k : Kind) : Json := .string k.label

def Kind.ofJson? (j : Json) : Option Kind :=
  j.label?.bind Kind.ofLabel?

mutual

/-- The JSON form of a type. -/
def GoType.toJson : GoType → Json
  | .basic k => .variant "Basic" k.toJson
  | .array elem len => .variant "Array" (.object [("elem", elem.toJson), ("len", .nat len)])
  | .slice elem => .variant "Slice" (.object [("elem", elem.toJson)])
  | .map key elem => .variant "Map" (.object [("key", key.toJson), ("elem", elem.toJson)])
  | .struct fields => .variant "Struct" (.object [("fields", .array (fieldsToJson fields))])
  | .pointer elem => .variant "Pointer" (.object [("elem", elem.toJson)])
  | .interface methods =>
    .variant "Interface" (.object [("methods", .array (methods.map .string))])
  | .func signature => .variant "Signature" signature.toJson
  | .chan elem => .variant "Chan" (.object [("elem", elem.toJson)])
  | .named name definition =>
    .variant "Named" (.object [("name", .string name), ("underlying", definition.toJson)])
  | .tuple types => .variant "Tuple" (.array (typesToJson types))
termination_by structural t => t

/-- The JSON forms of several types. -/
def typesToJson : List GoType → List Json
  | [] => []
  | t :: ts => t.toJson :: typesToJson ts
termination_by structural ts => ts

/-- The JSON form of a receiver that may be absent. -/
def receiverToJson : Option GoType → Json
  | none => .null
  | some t => t.toJson
termination_by structural t => t

/-- The JSON forms of several fields. -/
def fieldsToJson : List Field → List Json
  | [] => []
  | f :: fs => f.toJson :: fieldsToJson fs
termination_by structural fs => fs

/-- The JSON form of a field. -/
def Field.toJson : Field → Json
  | ⟨name, type, embedded, hostTag⟩ =>
    .object [("name", .string name), ("field_type", type.toJson), ("embedded", .bool embedded),
      ("host_tag", .ofOption .string hostTag)]
termination_by structural f => f

/-- The JSON form of a signature. -/
def Signature.toJson : Signature → Json
  | ⟨recv, params, results, variadic⟩ =>
    .object [("recv", receiverToJson recv), ("params", .array (typesToJson params)),
      ("results", .array (typesToJson results)), ("variadic", .bool variadic)]
termination_by structural s => s

end

mutual

/-- Reads a type. -/
def GoType.ofJson? (j : Json) : Option GoType := do
  match j.variant? with
  | none => none
  | some (tag, ⟨body, _⟩) =>
    match tag with
    | "Basic" => return .basic (← Kind.ofJson? body)
    | "Array" =>
      let ⟨elem, _⟩ ← body.get? "elem"
      let elem ← GoType.ofJson? elem
      return .array elem (← body.required? "len" Json.word64?)
    | "Slice" =>
      let ⟨elem, _⟩ ← body.get? "elem"
      return .slice (← GoType.ofJson? elem)
    | "Map" =>
      let ⟨key, _⟩ ← body.get? "key"
      let ⟨elem, _⟩ ← body.get? "elem"
      return .map (← GoType.ofJson? key) (← GoType.ofJson? elem)
    | "Struct" =>
      let ⟨fields, _⟩ ← body.get? "fields"
      let parts ← fields.items?
      return .struct (← parts.mapM fun ⟨f, _⟩ => Field.ofJson? f)
    | "Pointer" =>
      let ⟨elem, _⟩ ← body.get? "elem"
      return .pointer (← GoType.ofJson? elem)
    | "Interface" => return .interface (← body.required? "methods" (Json.list? Json.string?))
    | "Signature" => return .func (← Signature.ofJson? body)
    | "Chan" =>
      let ⟨elem, _⟩ ← body.get? "elem"
      return .chan (← GoType.ofJson? elem)
    | "Named" =>
      let name ← body.required? "name" Json.string?
      let ⟨definition, _⟩ ← body.get? "underlying"
      return .named name (← GoType.ofJson? definition)
    | "Tuple" =>
      let parts ← body.items?
      return .tuple (← parts.mapM fun ⟨t, _⟩ => GoType.ofJson? t)
    | _ => none
termination_by sizeOf j
decreasing_by all_goals omega

/-- Reads a field. -/
def Field.ofJson? (j : Json) : Option Field := do
  let name ← j.required? "name" Json.string?
  let ⟨type, _⟩ ← j.get? "field_type"
  let type ← GoType.ofJson? type
  let embedded ← j.withDefault? "embedded" false Json.bool?
  let hostTag ← j.optional? "host_tag" Json.string?
  return { name, type, embedded, hostTag }
termination_by sizeOf j

/-- Reads a signature. -/
def Signature.ofJson? (j : Json) : Option Signature := do
  let recv ← match ← j.getOptional? "recv" with
    | none => some none
    | some ⟨t, _⟩ => (GoType.ofJson? t).map some
  let ⟨params, _⟩ ← j.get? "params"
  let paramParts ← params.items?
  let params ← paramParts.mapM fun ⟨t, _⟩ => GoType.ofJson? t
  let ⟨results, _⟩ ← j.get? "results"
  let resultParts ← results.items?
  let results ← resultParts.mapM fun ⟨t, _⟩ => GoType.ofJson? t
  let variadic ← j.withDefault? "variadic" false Json.bool?
  return { recv, params, results, variadic }
termination_by sizeOf j

end

end GoLua
