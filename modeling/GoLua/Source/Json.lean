import GoLua.Json.Value
import GoLua.Source.Diagnostic

/-!
# Positions and diagnostics in data files

The JSON forms of locations, spans and diagnostics. Lines and columns fit a word of 32 bits.
-/

namespace GoLua

namespace Location

def toJson (l : Location) : Json :=
  .object [("filename", .string l.filename), ("line", .nat l.line), ("column", .nat l.column)]

def ofJson? (j : Json) : Option Location := do
  let filename ← j.required? "filename" Json.string?
  let line ← j.required? "line" Json.word32?
  let column ← j.required? "column" Json.word32?
  return { filename, line, column }

end Location

namespace Span

def toJson (s : Span) : Json :=
  .object [("start", s.start.toJson), ("end", s.stop.toJson)]

def ofJson? (j : Json) : Option Span := do
  let start ← j.required? "start" Location.ofJson?
  let stop ← j.required? "end" Location.ofJson?
  return { start, stop }

end Span

namespace Severity

/-- How a data file names a severity. -/
def label : Severity → String
  | .error => "Error"
  | .warning => "Warning"

def ofLabel? : String → Option Severity
  | "Error" => some .error
  | "Warning" => some .warning
  | _ => none

end Severity

namespace Diagnostic

def toJson (d : Diagnostic) : Json :=
  .object [("severity", .string d.severity.label), ("message", .string d.message),
    ("span", d.span.toJson), ("notes", .array (d.notes.map .string))]

def ofJson? (j : Json) : Option Diagnostic := do
  let severity ← j.required? "severity" fun s => s.label?.bind Severity.ofLabel?
  let message ← j.required? "message" Json.string?
  let span ← j.required? "span" Span.ofJson?
  let notes ← j.required? "notes" (Json.list? Json.string?)
  return { severity, message, span, notes }

end Diagnostic

end GoLua
