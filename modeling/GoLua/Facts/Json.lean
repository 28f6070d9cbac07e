import GoLua.Facts.Facts
import GoLua.Failure
import GoLua.Go.Constant.Json
import GoLua.Go.Object.Json
import GoLua.Json.Writer

/-!
# Facts in data files

The JSON form of the facts about a compilation unit: one object per table, with the numbers of the
nodes as keys. A table may be missing. A number is written in plain decimal digits, without a sign
or leading zeros, and fits a word of 32 bits; when a node occurs twice, the later fact counts.
-/

namespace GoLua

/-- The number that a key writes. -/
def nodeIdOfKey? (key : Json.Key) : Option NodeId :=
  match key.text.toList with
  | [] => none
  | '0' :: _ :: _ => none
  | cs =>
    if !key.escaped && cs.all Char.isDigit then
      let id := cs.foldl (fun n c => n * 10 + Json.digitValue c) 0
      if id < 0x100000000 then some id else none
    else none

namespace NodeTable

variable {α : Type}

def toJson (encode : α → Json) (t : NodeTable α) : Json :=
  .object (t.entries.map fun e => (toString e.1, encode e.2))

def ofJson? (decode : Json → Option α) : Json → Option (NodeTable α)
  | .object members => do
    let entries ← members.mapM fun m => do
      let id ← nodeIdOfKey? m.1
      let a ← decode m.2
      return (id, a)
    return .ofList entries
  | _ => none

end NodeTable

namespace Facts

def toJson (f : Facts) : Json :=
  .object [("types", f.types.toJson GoType.toJson),
    ("constants", f.constants.toJson Constant.toJson),
    ("definitions", f.definitions.toJson Object.toJson), ("uses", f.uses.toJson Object.toJson),
    ("selections", f.selections.toJson Selection.toJson)]

def ofJson? (j : Json) : Option Facts := do
  if !j.isObject then none
  let types ← j.withDefault? "types" .empty (NodeTable.ofJson? GoType.ofJson?)
  let constants ← j.withDefault? "constants" .empty (NodeTable.ofJson? Constant.ofJson?)
  let definitions ← j.withDefault? "definitions" .empty (NodeTable.ofJson? Object.ofJson?)
  let uses ← j.withDefault? "uses" .empty (NodeTable.ofJson? Object.ofJson?)
  let selections ← j.withDefault? "selections" .empty (NodeTable.ofJson? Selection.ofJson?)
  return { types, constants, definitions, uses, selections }

/-- The facts that a text holds in some format. -/
def parseIn (format : Json.Format) (text : String) : Except CompileError Facts :=
  match (format.read text).bind ofJson? with
  | some facts => .ok facts
  | none => .error (.config "invalid oracle table")

/-- The text of the facts in some format, on indented lines. -/
def printIn (format : Json.Format) (f : Facts) : String :=
  format.write .indented f.toJson

/-- The facts that a data file holds. -/
def parse : String → Except CompileError Facts :=
  parseIn .data

/-- The data file of the facts. -/
def print : Facts → String :=
  printIn .data

end Facts

end GoLua
