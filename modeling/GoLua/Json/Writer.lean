import GoLua.Json.Reader
import GoLua.Text.Delimited
import GoLua.Text.Escaped

/-!
# Writing JSON texts

The text of a JSON value. Characters stand for themselves, except for quotes, backslashes and controls,
which are escaped. Where blanks stand is a matter of *layout*: answers are written without any, and data
files on indented lines, one for each item and member.
-/

namespace GoLua.Json

/-- A number in four hexadecimal digits. -/
def fourHexDigits (n : Nat) : String :=
  let digits := Text.hexText n
  String.ofList (List.replicate (4 - digits.length) '0') ++ digits

/-- One character of a string. -/
def charText (c : Char) : String :=
  match c with
  | '"' => "\\\""
  | '\\' => "\\\\"
  | '\x08' => "\\b"
  | '\x0c' => "\\f"
  | '\n' => "\\n"
  | '\r' => "\\r"
  | '\t' => "\\t"
  | c => if c < ' ' then "\\u" ++ fourHexDigits c.toNat else c.toString

/-- A string between quotes. -/
def stringText (s : String) : String :=
  "\"" ++ String.join (s.toList.map charText) ++ "\""

/-! ### Layout -/

/-- Where blanks stand in a text. A reader skips them. -/
structure Layout where
  /-- The blanks before an item or member that is nested so deep, and before the end of its
  container. -/
  lineBreak : Nat → String
  /-- The blanks between a key and its value. -/
  gap : String
  blank_lineBreak : ∀ depth, (lineBreak depth).toList.all isBlank
  blank_gap : gap.toList.all isBlank

namespace Layout

/-- Without blanks. -/
def compact : Layout where
  lineBreak _ := ""
  gap := ""
  blank_lineBreak _ := rfl
  blank_gap := rfl

/-- On lines, with two blanks for each level. -/
def indented : Layout where
  lineBreak depth := "\n" ++ String.ofList (List.replicate (2 * depth) ' ')
  gap := " "
  blank_lineBreak depth := by
    simp only [String.toList_append, List.all_append, String.toList_ofList, List.all_replicate]
    split <;> rfl
  blank_gap := rfl

end Layout

/-- The texts of items or members between the marks of their container. -/
def enclosed (opening closing lineEnd : String) (texts : List String) : String :=
  if texts.isEmpty then opening ++ closing
  else opening ++ ",".intercalate texts ++ lineEnd ++ closing

/-! ### Values -/

mutual

/-- The text of a value that is nested so deep. -/
def write (layout : Layout) (depth : Nat) : Json → String
  | .null => "null"
  | .bool b => if b then "true" else "false"
  | .int negative n => (if negative then "-" else "") ++ toString n
  | .real x => doubleText x
  | .string s => stringText s
  | .array items =>
    enclosed "[" "]" (layout.lineBreak depth) (itemTexts layout (depth + 1) items)
  | .object members =>
    enclosed "\x7b" "\x7d" (layout.lineBreak depth) (memberTexts layout (depth + 1) members)
  | .unreadable => "null"
termination_by structural j => j

/-- The texts of the items of an array. -/
def itemTexts (layout : Layout) (depth : Nat) : List Json → List String
  | [] => []
  | v :: vs => (layout.lineBreak depth ++ v.write layout depth) :: itemTexts layout depth vs
termination_by structural vs => vs

/-- The texts of the members of an object. -/
def memberTexts (layout : Layout) (depth : Nat) : List (Key × Json) → List String
  | [] => []
  | m :: ms => memberText layout depth m :: memberTexts layout depth ms
termination_by structural ms => ms

/-- The text of a member. -/
def memberText (layout : Layout) (depth : Nat) : Key × Json → String
  | (key, v) =>
    layout.lineBreak depth ++ stringText key.text ++ ":" ++ layout.gap ++ v.write layout depth
termination_by structural m => m

end

/-- The text of a value without any blanks. -/
def text (j : Json) : String :=
  j.write .compact 0

/-! ### Formats -/

/-- How data become texts and texts become data again. What is written and read goes through values,
so nothing but a format knows about the characters of a text. -/
structure Format where
  write : Layout → Json → String
  read : String → Option Json

/-- The format of data files. -/
def Format.data : Format where
  write layout j := j.write layout 0
  read := parse? dataDepth

end GoLua.Json
