import GoLua.Go.Type.Form
import GoLua.Number.Shortest
import GoLua.Number.Width
import GoLua.Text.Escaped

/-!
# Constant values

The value of a node that is known before the program runs. A constant is read through *views*: an
integral float is also an integer, every number is also a float, and every number has a real and an
imaginary part. Which view counts is decided by the type of the node, not by the constant.
-/

namespace GoLua

open Text

/-- A value known before the program runs. -/
inductive Constant where
  | bool (value : Bool)
  | int (value : Int)
  | float (value : Double)
  | complex (re im : Double)
  | string (value : String)
  deriving DecidableEq, Repr

namespace Constant

/-- The greatest and least integers that a float's integer view gives; a float beyond is cut to
them. They are those of a signed cell of 128 bits. -/
def clampInt (n : Int) : Int :=
  max Int128.least (min n Int128.greatest)

/-- The integer view: an integer, or a number that is whole and has no imaginary part. -/
def toInt? : Constant → Option Int
  | .int n => some n
  | .float x => x.toInt?.map clampInt
  | .complex re im => if im.isZero then re.toInt?.map clampInt else none
  | _ => none

/-- The float view: any number, without its imaginary part. -/
def toFloat? : Constant → Option Double
  | .int n => some (.ofInt n)
  | .float x => some x
  | .complex re _ => some re
  | _ => none

def toBool? : Constant → Option Bool
  | .bool b => some b
  | _ => none

def toString? : Constant → Option String
  | .string s => some s
  | _ => none

/-- The real part of a number. -/
def re? (c : Constant) : Option Double :=
  c.toFloat?

/-- The imaginary part of a number; integers and floats have none. -/
def im? : Constant → Option Double
  | .complex _ im => some im
  | .int _ | .float _ => some .zero
  | _ => none

/-- The constructor form of a constant, as messages show it. -/
def form : Constant → String
  | .bool b => "Bool" ++ parenthesized (truthWord b)
  | .int n => "Int" ++ parenthesized (toString n)
  | .float x => "Float" ++ parenthesized x.text
  | .complex re im => "Complex" ++ parenthesized (commaSeparated [re.text, im.text])
  | .string s => "String" ++ parenthesized (escaped s)

/-- Equality of values: numbers are compared as numbers. -/
def sameValue : Constant → Constant → Bool
  | .float x, .float y => x.numericallyEqual y
  | .complex a b, .complex c d => a.numericallyEqual c && b.numericallyEqual d
  | c, d => c == d

end Constant

end GoLua
