import GoLua.Source.Position

/-!
# Diagnostics

What is told to the author of the program. Reporting a diagnostic does not stop the work: a reporter
collects them, so that one pass can show several, and can be turned into a single failure at the
end. The counts it gives are those of the diagnostics that it holds.
-/

namespace GoLua

inductive Severity where
  | error
  | warning
  deriving DecidableEq, Repr

/-- How a severity is written in a message. -/
def Severity.text : Severity → String
  | .error => "error"
  | .warning => "warning"

/-- A message about a stretch of source text. -/
structure Diagnostic where
  severity : Severity
  message : String
  span : Span
  notes : List String := []
  deriving DecidableEq, Repr

/-- The line of a diagnostic, and a line for each note. -/
def Diagnostic.text (d : Diagnostic) : String :=
  d.span.text ++ ": " ++ d.severity.text ++ ": " ++ d.message ++
    String.join (d.notes.map ("\n  note: " ++ ·))

/-- The diagnostics of one compilation unit, in the order of their reports. -/
structure Reporter where
  diagnostics : List Diagnostic := []
  deriving DecidableEq, Repr

namespace Reporter

def report (r : Reporter) (d : Diagnostic) : Reporter :=
  ⟨r.diagnostics ++ [d]⟩

/-- Takes all diagnostics out. -/
def take (r : Reporter) : List Diagnostic × Reporter :=
  (r.diagnostics, {})

/-- How many diagnostics of a severity are held. -/
def count (r : Reporter) (severity : Severity) : Nat :=
  r.diagnostics.countP (·.severity == severity)

def hasErrors (r : Reporter) : Bool :=
  0 < r.count .error

/-- A count with its noun, in the plural unless it is one. -/
def counted (n : Nat) (noun : String) : String :=
  toString n ++ " " ++ noun ++ if n = 1 then "" else "s"

/-- The counts in words; a count of zero is left out. -/
def summary (r : Reporter) : String :=
  match r.count .error, r.count .warning with
  | 0, 0 => "No errors or warnings"
  | 0, w => counted w "warning"
  | e, 0 => counted e "error"
  | e, w => counted e "error" ++ " and " ++ counted w "warning"

/-- The first error that was reported. -/
def firstError? (r : Reporter) : Option Diagnostic :=
  r.diagnostics.find? (·.severity == .error)

@[simp] theorem diagnostics_report (r : Reporter) (d : Diagnostic) :
    (r.report d).diagnostics = r.diagnostics ++ [d] := rfl

theorem count_report (r : Reporter) (d : Diagnostic) (s : Severity) :
    (r.report d).count s = r.count s + if d.severity = s then 1 else 0 := by
  simp [count, report, List.countP_append, List.countP_cons]

end Reporter

end GoLua
