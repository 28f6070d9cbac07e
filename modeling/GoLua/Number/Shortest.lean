import GoLua.Number.Double

/-!
# Shortest decimals

The decimal text of a double: as few significant digits as read back to the same double, and of the
decimals with that many digits the one nearest to it.

The reals that round to a double form an interval around it, with its ends when the significand is
even. For one digit, two, and so on, the decimals of that precision form a grid; if a point of the
grid lies in the interval then so does one of the two grid points around the double, so only those
two are tried. Seventeen digits always suffice.

Printed forms differ in two ways only, and a `DecimalLayout` holds both: which of two equally near
decimals is taken, and between which positions of the decimal point a number is written without an
exponent.
-/

namespace GoLua

/-- A positive decimal number `digits · 10 ^ exponent`. -/
structure Decimal where
  digits : Nat
  exponent : Int
  deriving DecidableEq, Repr

/-- The decimal digits of a natural number. -/
def decimalDigits (n : Nat) : List Char :=
  Nat.toDigits 10 n

/-- Compares `a · 10 ^ p` with `b · 2 ^ q`, exactly. -/
def compareDecimalBinary (a : Nat) (p : Int) (b : Nat) (q : Int) : Ordering :=
  compare ((a * Nat.pow 10 p.toNat) <<< (-q).toNat) ((b * Nat.pow 10 (-p).toNat) <<< q.toNat)

/-- Which of two neighbouring decimals is taken that are equally near. -/
inductive HalfRule where
  /-- The greater one. -/
  | up
  /-- The one whose last digit is even. -/
  | even
  deriving DecidableEq, Repr

/-- Whether the upper neighbour of `below` is taken, given how the distance from `below` compares
with half a step. -/
def HalfRule.takesUpper (rule : HalfRule) (below : Nat) : Ordering → Bool
  | .lt => false
  | .gt => true
  | .eq =>
    match rule with
    | .up => true
    | .even => below % 2 == 1

namespace Double

/-- The ends of the interval of reals that round to a positive finite double, in units of
`2 ^ (exponent - 2)`. Below a power of two the doubles are twice as dense. -/
def roundingEnds (x : Double) : Nat × Nat :=
  let m := x.significand
  (if x.fractionBits = 0 ∧ 1 < x.exponentBits then 4 * m - 1 else 4 * m - 2, 4 * m + 2)

/-- Whether a decimal reads back as the positive finite double `x`. -/
def readsBack (x : Double) (d : Decimal) : Bool :=
  let even := x.significand % 2 == 0
  let (low, high) := x.roundingEnds
  let q := x.exponent - 2
  (match compareDecimalBinary d.digits d.exponent low q with
    | .lt => false | .eq => even | .gt => true) &&
  (match compareDecimalBinary d.digits d.exponent high q with
    | .lt => true | .eq => even | .gt => false)

/-- The exponent of the leading digit of a positive finite double. -/
def decimalExponent (x : Double) : Int :=
  -- Only one of the two shifts is by more than nothing, so the ratio is the double itself.
  let num := x.significand <<< x.exponent.toNat
  let den := 1 <<< (-x.exponent).toNat
  let e : Int := (decimalDigits num).length - (decimalDigits den).length
  if den * Nat.pow 10 e.toNat ≤ num * Nat.pow 10 (-e).toNat then e else e - 1

/-- The grid point at or below a positive finite double, on the grid of step `10 ^ p`, and how the
distance from it compares with half a step. -/
def gridPoint (x : Double) (p : Int) : Nat × Ordering :=
  let num := (x.significand * Nat.pow 10 (-p).toNat) <<< x.exponent.toNat
  let den := Nat.pow 10 p.toNat <<< (-x.exponent).toNat
  (num / den, compare (2 * (num % den)) den)

/-- The decimal on the grid of step `10 ^ p` that reads back, if there is one: the nearer of the two
grid points if both do. -/
def candidate? (rule : HalfRule) (x : Double) (p : Int) : Option Decimal :=
  let (below, distance) := x.gridPoint p
  let down : Decimal := ⟨below, p⟩
  let up : Decimal := ⟨below + 1, p⟩
  match x.readsBack down, x.readsBack up with
  | true, true => some (if rule.takesUpper below distance then up else down)
  | true, false => some down
  | false, true => some up
  | false, false => none

/-- Tries the grids one after the other, from the coarsest. -/
def shortestFrom (rule : HalfRule) (x : Double) (p : Int) : Nat → Decimal
  | 0 => ⟨(x.gridPoint p).1, p⟩
  | more + 1 => (candidate? rule x p).getD (shortestFrom rule x (p - 1) more)

/-- The shortest decimal of a positive finite double. -/
def shortest (rule : HalfRule) (x : Double) : Decimal :=
  shortestFrom rule x x.decimalExponent 17

end Double

/-- A printed form. It stops writing numbers without an exponent at the least and the greatest
number of digits before the decimal point, negative when zeros follow it. -/
structure DecimalLayout where
  leastPoint : Int
  mostPoint : Int
  half : HalfRule

/-- A list of digits without the zeros at its end. -/
def dropTrailingZeros (digits : List Char) : List Char :=
  (digits.reverse.dropWhile (· == '0')).reverse

/-- A positive decimal laid out: whole numbers keep a `.0`, and an exponent has neither a plus sign
nor leading zeros. -/
def DecimalLayout.text (layout : DecimalLayout) (d : Decimal) : String :=
  let all := decimalDigits d.digits
  let point : Int := all.length + d.exponent
  let digits := dropTrailingZeros all
  let zeros (n : Int) := List.replicate n.toNat '0'
  if layout.leastPoint ≤ point ∧ point ≤ layout.mostPoint then
    -- The point stands before all digits, after all of them, or among them.
    if point ≤ 0 then String.ofList ('0' :: '.' :: zeros (-point) ++ digits)
    else if digits.length ≤ point then
      String.ofList (digits ++ zeros (point - digits.length) ++ ['.', '0'])
    else String.ofList (digits.take point.toNat ++ '.' :: digits.drop point.toNat)
  else
    let fraction := digits.drop 1
    String.ofList (digits.take 1 ++ if fraction.isEmpty then [] else '.' :: fraction) ++
      "e" ++ toString (point - 1)

/-- The text of a finite double in a given layout. -/
def DecimalLayout.ofFinite (layout : DecimalLayout) (x : Double) : String :=
  (if x.isNegative then "-" else "") ++
    if x.isZero then "0.0" else layout.text (x.shortest layout.half)

namespace Double

/-- Messages and emitted literals write numbers from `1e-4` up to `1e16` without an exponent, and a
half goes up. -/
def textLayout : DecimalLayout := ⟨-3, 16, .up⟩

/-- The text of a double. -/
def text (x : Double) : String :=
  if x.isNaN then "NaN"
  else if x.isInfinite then if x.isNegative then "-inf" else "inf"
  else textLayout.ofFinite x

end Double

end GoLua
