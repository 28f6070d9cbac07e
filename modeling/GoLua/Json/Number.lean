import GoLua.Json.Value
import GoLua.Number.Shortest

/-!
# Numbers of JSON texts

How the digits of a JSON number become a double, and how a double is written as one.

Reading keeps as many leading digits as fit a word of 64 bits and then multiplies or divides the
double of that word by a power of ten, rounding at each step. This is fast and is not always the
nearest double: a number written with seventeen digits may come back as a neighbour.
-/

namespace GoLua.Json

/-- The value of a decimal digit. -/
def digitValue (c : Char) : Nat :=
  c.toNat - '0'.toNat

/-- Appends digits to a significand as long as it stays below `2 ^ 64`, and gives the digits that
are left over. -/
def appendDigits (significand : Nat) : List Char → Nat × List Char
  | [] => (significand, [])
  | c :: cs =>
    let next := significand * 10 + digitValue c
    if next < 0x10000000000000000 then appendDigits next cs else (significand, c :: cs)

/-- Multiplies or divides a double by a power of ten. The powers up to `1e308` are doubles; beyond
them a quotient is taken in steps, until it vanishes. None if a product is infinite. -/
def scaleByTen (x : Double) (e : Int) : Option Double :=
  if 308 < e then if x.isZero then some x else none
  else if 0 ≤ e then
    let y := x.scaleUp (Double.powerOfTen e.toNat)
    if y.isInfinite then none else some y
  else if -308 ≤ e then some (x.scaleDown (Double.powerOfTen (-e).toNat))
  else if x.isZero then some x
  else scaleByTen (x.scaleDown (Double.powerOfTen 308)) (e + 308)
termination_by (-e).toNat
decreasing_by omega

/-- Exponents are cut to a signed cell of 32 bits. -/
def clampExponent (e : Int) : Int :=
  max (-0x80000000) (min e 0x7FFFFFFF)

/-- The double of a number with the given digits before and after its point and the given exponent,
without its sign. An exponent that does not fit its cell leaves only zero, or nothing. -/
def readDouble (whole fraction : List Char) (exponentDigits : List Char)
    (exponentNegative : Bool) : Option Double :=
  let (significand, dropped) := appendDigits 0 whole
  let (significand, ignored) := appendDigits significand fraction
  -- Digits dropped before the point scale up, digits kept behind it scale down.
  let point : Int := (dropped.length : Int) - (fraction.length - ignored.length : Nat)
  let e : Nat := exponentDigits.foldl (fun n c => n * 10 + digitValue c) 0
  if 0x80000000 ≤ e then
    if significand = 0 ∨ exponentNegative then some .zero else none
  else
    scaleByTen (.nearest significand 1)
      (clampExponent (if exponentNegative then point - e else point + e))

/-- Any number as a double. -/
def double? : Json → Option Double
  | .int negative n =>
    let magnitude :=
      if n < 0x10000000000000000 then some (.nearest n 1)
      else readDouble (decimalDigits n) [] [] false
    magnitude.map fun x => if negative then x.neg else x
  | .real x => some x
  | _ => none

/-- Data files write numbers from `1e-5` up to `1e16` without an exponent, and a half goes to the
even neighbour. -/
def numberLayout : DecimalLayout := ⟨-4, 16, .even⟩

/-- A double as a JSON number; what is not finite has none and is written as null. -/
def doubleText (x : Double) : String :=
  if x.isFinite then numberLayout.ofFinite x else "null"

end GoLua.Json
