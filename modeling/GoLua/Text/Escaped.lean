import GoLua.Text.Printable

/-!
# Escaped text

A text between double quotes, written so that every character of it can be seen: quotes and
backslashes are escaped, the common controls have a letter, and any other character without a glyph
is written as its code point in braces. Messages show string constants this way.
-/

namespace GoLua.Text

/-- The digits of `n` in base sixteen, lower case, without leading zeros. -/
def hexText (n : Nat) : String :=
  String.ofList (Nat.toDigits 16 n)

/-- One character of an escaped text. -/
def escapeChar (c : Char) : String :=
  match c with
  | '\x00' => "\\0"
  | '\t' => "\\t"
  | '\r' => "\\r"
  | '\n' => "\\n"
  | '"' => "\\\""
  | '\\' => "\\\\"
  | c => if isPrintable c then c.toString else "\\u\x7b" ++ hexText c.toNat ++ "\x7d"

/-- A text between double quotes, with every hidden character escaped. -/
def escaped (s : String) : String :=
  "\"" ++ String.join (s.toList.map escapeChar) ++ "\""

end GoLua.Text
