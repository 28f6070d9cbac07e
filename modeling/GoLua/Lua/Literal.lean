import GoLua.Number.Shortest
import GoLua.Text.Delimited
import GoLua.Text.Escaped

/-!
# Literals of Lua

How strings, integers and floats are written so that Lua reads them back as the same value of the
same sort.

* A string is written byte by byte. Printable ASCII stands for itself, and every other byte is
  escaped with three decimal digits, so no byte of the text can close the literal or merge with a
  neighbouring escape.
* A float always shows that it is one, by a point or an exponent; the infinities and not-a-number
  have no numeral and are written as expressions.
* An integer of the 64-bit cell is written in decimal; one above it in hexadecimal, which Lua wraps
  into the cell. The least integer has no decimal spelling as an integer and is written by name.
-/

namespace GoLua.Lua

/-! ### Strings -/

/-- The decimal digits of a byte, three of them. -/
def threeDigits (n : Nat) : String :=
  String.ofList [Nat.digitChar (n / 100), Nat.digitChar (n / 10 % 10), Nat.digitChar (n % 10)]

/-- One byte of a string literal. -/
def quoteByte (b : UInt8) : String :=
  match b.toNat with
  | 34 => "\\\""
  | 92 => "\\\\"
  | 10 => "\\n"
  | 13 => "\\r"
  | 9 => "\\t"
  | n => if 32 ≤ n ∧ n ≤ 126 then (Char.ofNat n).toString else "\\" ++ threeDigits n

/-- The characters of one byte of a string literal, by its number. -/
def byteChars (n : Nat) : List Char :=
  match n with
  | 34 => ['\\', '"']
  | 92 => ['\\', '\\']
  | 10 => ['\\', 'n']
  | 13 => ['\\', 'r']
  | 9 => ['\\', 't']
  | n =>
    if 32 ≤ n ∧ n ≤ 126 then [Char.ofNat n]
    else ['\\', Nat.digitChar (n / 100), Nat.digitChar (n / 10 % 10), Nat.digitChar (n % 10)]

theorem toList_quoteByte (b : UInt8) : (quoteByte b).toList = byteChars b.toNat := by
  unfold quoteByte
  generalize b.toNat = n
  split
  case h_6 hquote hbackslash hfeed hreturn htab =>
    rw [byteChars.eq_6 n hquote hbackslash hfeed hreturn htab]
    split
    · rw [Char.toString, String.toList_singleton]
    · rw [threeDigits, String.toList_append, String.toList_ofList, String.toList_ofList]
      rfl
  all_goals rfl

/-- There are so few bytes that each one can be looked at. -/
theorem quoteByte_of_forall {p : Nat → List Char → Prop} (h : ∀ n < 256, p n (byteChars n))
    (b : UInt8) : p b.toNat (quoteByte b).toList := by
  rw [toList_quoteByte]
  exact h b.toNat b.toNat_lt

/-- The string literal of a sequence of bytes. -/
def quoteBytes (bytes : List UInt8) : String :=
  "\"" ++ String.join (bytes.map quoteByte) ++ "\""

/-- The string literal of a text, by its UTF-8 bytes. -/
def quote (s : String) : String :=
  quoteBytes s.toUTF8.data.toList

/-! ### Numbers -/

/-- The float literal of a double. -/
def floatLiteral (x : Double) : String :=
  if x.isNaN then "(0/0)"
  else if x.isInfinite then if x.isNegative then "(-math.huge)" else "math.huge"
  else x.text

/-- The least integer of the 64-bit cell. Exclusive or with it turns the unsigned order of cells
into the signed one. -/
def minInteger : String := "math.mininteger"

/-- A natural number in hexadecimal, with capital digits. -/
def hexLiteral (n : Nat) : String :=
  "0x" ++ String.ofList ((Nat.toDigits 16 n).map Char.toUpper)

/-- The integer literal of an integer. -/
def intLiteral (n : Int) : String :=
  if n = -0x8000000000000000 then minInteger
  else if 0x8000000000000000 ≤ n then hexLiteral (n % 0x10000000000000000).toNat
  else toString n

end GoLua.Lua
