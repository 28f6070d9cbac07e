/-!
# Numerals

Which texts read as a floating-point number: an optional sign, and then a word for infinity or for
not-a-number in any case, or decimal digits with at most one point among or around them, and
perhaps an exponent. Blanks, hexadecimal digits and digit separators are not allowed.

A text of this form, emitted as an operand, can be written twice without being evaluated twice.
-/

namespace GoLua.Numeral

/-- The rest of a text after its leading decimal digits, and whether there were any. -/
def skipDigits : List Char → Bool × List Char
  | [] => (false, [])
  | c :: r => if c.isDigit then (true, (skipDigits r).2) else (false, c :: r)

/-- The rest of a text after an optional sign. -/
def skipSign : List Char → List Char
  | '+' :: r => r
  | '-' :: r => r
  | r => r

/-- Nothing, or an exponent: a letter `e`, an optional sign, and at least one digit. -/
def isExponent : List Char → Bool
  | [] => true
  | c :: r =>
    (c == 'e' || c == 'E') &&
      match skipDigits (skipSign r) with
      | (true, []) => true
      | _ => false

/-- Digits with an optional point, at least one digit in all, and an optional exponent. -/
def isDecimal (s : List Char) : Bool :=
  match skipDigits s with
  -- A point needs digits on one side, whichever it is.
  | (whole, '.' :: r) => match skipDigits r with
    | (fraction, r) => (whole || fraction) && isExponent r
  | (whole, r) => whole && isExponent r

/-- The words for infinity and for not-a-number, in any case. -/
def isWord (s : List Char) : Bool :=
  let lower := String.ofList (s.map Char.toLower)
  lower == "inf" || lower == "infinity" || lower == "nan"

end Numeral

/-- Whether a text reads as a floating-point number. -/
def isNumeral (s : String) : Bool :=
  let unsigned := Numeral.skipSign s.toList
  Numeral.isWord unsigned || Numeral.isDecimal unsigned

end GoLua
