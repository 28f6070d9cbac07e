/-!
# Doubles

IEEE 754 binary64 numbers, held as their 64 bits. No operation of the machine's floating-point unit
is used: a finite double denotes `significand · 2 ^ exponent` with a sign, and everything that is
asked of it is computed from that in exact integer arithmetic.

`Double.nearest` goes the other way. It takes a positive ratio to the double nearest to it, the even
one of two that are equally near, and to infinity beyond the largest. Sums, products and quotients
that round once are its values at the exact results.
-/

namespace GoLua

/-- A double, as its bits. -/
structure Double where
  bits : UInt64
  deriving DecidableEq, Repr

namespace Double

/-! ### The fields of the format -/

/-- What the sign bit counts, `2 ^ 63`. -/
def signWeight : Nat := 0x8000000000000000

/-- What the lowest bit of the exponent counts, `2 ^ 52`. -/
def exponentWeight : Nat := 0x10000000000000

/-- The bits below the sign: the greater they are, the greater the magnitude. -/
def magnitudeBits (x : Double) : Nat :=
  x.bits.toNat % signWeight

/-- Whether the sign bit is set; it is for `-0`. -/
def isNegative (x : Double) : Bool :=
  signWeight ≤ x.bits.toNat

/-- The eleven bits of the biased exponent. -/
def exponentBits (x : Double) : Nat :=
  x.magnitudeBits / exponentWeight

/-- The 52 bits of the fraction. -/
def fractionBits (x : Double) : Nat :=
  x.magnitudeBits % exponentWeight

def isNaN (x : Double) : Bool :=
  x.exponentBits == 2047 && x.fractionBits != 0

def isInfinite (x : Double) : Bool :=
  x.exponentBits == 2047 && x.fractionBits == 0

def isFinite (x : Double) : Bool :=
  x.exponentBits < 2047

/-- Either of the two zeros. -/
def isZero (x : Double) : Bool :=
  x.magnitudeBits == 0

/-- Less than zero, as a number: neither zero is, and NaN is not. -/
def isBelowZero (x : Double) : Bool :=
  x.isNegative && !x.isZero && !x.isNaN

/-- The integer that the power of two is multiplied with. -/
def significand (x : Double) : Nat :=
  if x.exponentBits = 0 then x.fractionBits else exponentWeight + x.fractionBits

/-- The exponent of the power of two. -/
def exponent (x : Double) : Int :=
  max (x.exponentBits : Int) 1 - 1075

/-- The double with the given sign and magnitude bits. -/
def ofMagnitudeBits (negative : Bool) (bits : Nat) : Double :=
  ⟨UInt64.ofNat (if negative then signWeight + bits else bits)⟩

/-- The positive zero. -/
def zero : Double := ofMagnitudeBits false 0

/-- The number with the other sign. -/
def neg (x : Double) : Double :=
  ofMagnitudeBits (!x.isNegative) x.magnitudeBits

/-- Equality of numbers: the two zeros are equal, and NaN equals nothing. -/
def numericallyEqual (x y : Double) : Bool :=
  !x.isNaN && !y.isNaN && (x == y || (x.isZero && y.isZero))

/-! ### Rounding -/

/-- A quotient rounded to the nearest integer, to the even one of two. -/
def roundHalfEven (num den : Nat) : Nat :=
  let q := num / den
  let twice := 2 * (num % den)
  if twice < den then q
  else if den < twice then q + 1
  else if q % 2 = 0 then q else q + 1

/-- The exponent at which a positive ratio has a significand of 53 bits. -/
def binaryExponent (num den : Nat) : Int :=
  -- The ratio lies between `2 ^ (e + 51)` and `2 ^ (e + 53)`; one comparison decides.
  let e := (num.log2 : Int) - den.log2 - 52
  let fits :=
    if 0 ≤ e then den <<< (e.toNat + 52) ≤ num else den <<< 52 ≤ num <<< (-e).toNat
  if fits then e else e - 1

/-- **Rounding.** The double nearest to the positive ratio `num / den`, the even one of two that
are equally near; infinity when the ratio rounds past the largest double. The significand is rounded
at the exponent of the ratio, or at the least exponent of the format. Adding it to the exponent
field, rather than placing it beside the field, carries a significand that rounded up to `2 ^ 53`
into the next exponent. -/
def nearest (num den : Nat) : Double :=
  if num = 0 then zero
  else
    let e := max (binaryExponent num den) (-1074)
    let m := if 0 ≤ e then roundHalfEven num (den <<< e.toNat)
      else roundHalfEven (num <<< (-e).toNat) den
    -- For a normal ratio `m` has the hidden bit, which counts one more in the exponent field.
    ofMagnitudeBits false (min ((e + 1074).toNat * exponentWeight + m) (2047 * exponentWeight))

/-- The double nearest to an integer. -/
def ofInt (n : Int) : Double :=
  if n < 0 then (nearest n.natAbs 1).neg else nearest n.natAbs 1

/-! ### Integers -/

/-- The integer that a finite double is equal to, if it is whole. -/
def toInt? (x : Double) : Option Int :=
  if x.isFinite then
    let sign : Int := if x.isNegative then -1 else 1
    if 0 ≤ x.exponent then some (sign * (x.significand <<< x.exponent.toNat : Nat))
    else
      let unit := 1 <<< (-x.exponent).toNat
      if x.significand % unit = 0 then some (sign * (x.significand / unit : Nat)) else none
  else none

/-- The exact product of a finite double's magnitude with a natural number, rounded once. -/
def scaleUp (x : Double) (factor : Nat) : Double :=
  if 0 ≤ x.exponent then nearest ((x.significand * factor) <<< x.exponent.toNat) 1
  else nearest (x.significand * factor) (1 <<< (-x.exponent).toNat)

/-- The exact quotient of a finite double's magnitude by a positive natural number, rounded once. -/
def scaleDown (x : Double) (divisor : Nat) : Double :=
  if 0 ≤ x.exponent then nearest (x.significand <<< x.exponent.toNat) divisor
  else nearest x.significand (divisor <<< (-x.exponent).toNat)

/-- The nearest double to a power of ten, as a whole number. Up to `10 ^ 308` it is finite. -/
def powerOfTen (n : Nat) : Nat :=
  let x := nearest (Nat.pow 10 n) 1
  if 0 ≤ x.exponent then x.significand <<< x.exponent.toNat
  else x.significand >>> (-x.exponent).toNat

end Double

end GoLua
