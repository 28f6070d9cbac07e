import GoLua.Config
import GoLua.Failure
import GoLua.Json.Writer

/-!
# Configurations in data files

The JSON form of a configuration. Every member may be missing and then has its default; the boxed
types may come in any order and more than once. A text that can be read but makes no sense is
refused with what is wrong with it.
-/

namespace GoLua

namespace HostBridge

def toJson (h : HostBridge) : Json :=
  .object [("package", .string h.package), ("object_type", .string h.objectType)]

def ofJson? (j : Json) : Option HostBridge := do
  let package ← j.required? "package" Json.string?
  let objectType ← j.required? "object_type" Json.string?
  return { package, objectType }

end HostBridge

namespace Config

def toJson (c : Config) : Json :=
  .object [("boxed_scalars", .array (c.boxedScalars.names.map .string)),
    ("host", .ofOption HostBridge.toJson c.host), ("current_package", .string c.currentPackage)]

def ofJson? (j : Json) : Option Config := do
  if !j.isObject then none
  let default : Config := {}
  let boxedScalars ← j.withDefault? "boxed_scalars" default.boxedScalars
    fun v => (v.list? Json.string?).map NameSet.ofList
  let host ← j.optional? "host" HostBridge.ofJson?
  let currentPackage ← j.withDefault? "current_package" default.currentPackage Json.string?
  return { boxedScalars, host, currentPackage }

/-- Refuses a configuration that makes no sense. -/
def validate (c : Config) : Except CompileError Unit :=
  match c.fault? with
  | some fault => .error (.config fault.text)
  | none => .ok ()

/-- The configuration that a text holds in some format. -/
def parseIn (format : Json.Format) (text : String) : Except CompileError Config :=
  match (format.read text).bind ofJson? with
  | some c => c.validate.map fun _ => c
  | none => .error (.config "invalid lowering config")

/-- The configuration that a data file holds. -/
def parse : String → Except CompileError Config :=
  parseIn .data

end Config

end GoLua
