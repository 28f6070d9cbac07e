import GoLua.Go.Type
import GoLua.Text.Delimited

/-!
# The text of a type

How Go writes a type. The text is also the name under which the run-time library knows the type:
an emitted assertion, box, copy or comparison passes it this text and nothing else. A declared type
is written by its name alone, and an embedded field by its type alone.
-/

namespace GoLua

open Text

mutual

/-- How Go writes a type. -/
def GoType.text : GoType → String
  | .basic k => k.spelling
  | .array elem len => "[" ++ toString len ++ "]" ++ elem.text
  | .slice elem => "[]" ++ elem.text
  | .map key elem => "map[" ++ key.text ++ "]" ++ elem.text
  | .struct fields => "struct " ++ braced (" " ++ "; ".intercalate (fieldTexts fields) ++ " ")
  | .pointer elem => "*" ++ elem.text
  | .interface [] => "interface " ++ braced ""
  | .interface (m :: ms) => "interface " ++ braced (" " ++ "; ".intercalate (m :: ms) ++ " ")
  | .func signature => signature.text
  | .chan elem => "chan " ++ elem.text
  | .named name _ => name
  | .tuple types => parenthesized (commaSeparated (typeTexts types))
termination_by structural t => t

/-- The texts of several types. -/
def typeTexts : List GoType → List String
  | [] => []
  | t :: ts => t.text :: typeTexts ts
termination_by structural ts => ts

/-- The texts of several fields. -/
def fieldTexts : List Field → List String
  | [] => []
  | f :: fs => f.text :: fieldTexts fs
termination_by structural fs => fs

/-- A field: its name and type, or its type alone when it is embedded. -/
def Field.text : Field → String
  | ⟨name, type, embedded, _⟩ => if embedded then type.text else name ++ " " ++ type.text
termination_by structural f => f

/-- A signature: a single result stands bare, several stand in brackets. -/
def Signature.text : Signature → String
  | ⟨_, params, results, _⟩ =>
    "func" ++ parenthesized (commaSeparated (typeTexts params)) ++
      match typeTexts results with
      | [] => ""
      | [result] => " " ++ result
      | results => " " ++ parenthesized (commaSeparated results)
termination_by structural s => s

end

end GoLua
