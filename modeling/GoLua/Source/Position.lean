/-!
# Positions in source files

A location is a line and a column of a file, both counted from one. A span goes from one location to
another and is written as briefly as its ends allow: a point by its line alone, a stretch of one
line with both columns, a stretch of one file with both ends, and anything else as two locations.
-/

namespace GoLua

/-- A place in a source file. -/
structure Location where
  filename : String
  line : Nat
  column : Nat
  deriving DecidableEq, Repr

namespace Location

/-- The place of what was never written in a file. -/
def unknown : Location := ⟨"<unknown>", 0, 0⟩

def text (l : Location) : String :=
  l.filename ++ ":" ++ toString l.line ++ ":" ++ toString l.column

end Location

/-- A stretch of source text. -/
structure Span where
  start : Location
  stop : Location
  deriving DecidableEq, Repr

namespace Span

/-- The span of a single location. -/
def point (l : Location) : Span := ⟨l, l⟩

def text (s : Span) : String :=
  if s.start.filename ≠ s.stop.filename then s.start.text ++ " to " ++ s.stop.text
  else if s.start.line ≠ s.stop.line then
    s.start.text ++ "-" ++ toString s.stop.line ++ ":" ++ toString s.stop.column
  else if s.start.column ≠ s.stop.column then s.start.text ++ "-" ++ toString s.stop.column
  else s.start.filename ++ ":" ++ toString s.start.line

end Span

end GoLua
