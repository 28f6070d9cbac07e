/-!
# Widths of integers

How many values a word of a width has, and the range of the widest integers. Powers of two are
written as shifts and numerals, which mean the same whatever instances are in scope.
-/

namespace GoLua

/-- How many words of a width there are, `2 ^ width`. -/
def wordCount (width : Nat) : Nat :=
  1 <<< width

namespace Int128

/-- The least integer of a signed cell of 128 bits. -/
def least : Int := -0x80000000000000000000000000000000

/-- The greatest integer of a signed cell of 128 bits. -/
def greatest : Int := 0x7FFFFFFFFFFFFFFFFFFFFFFFFFFFFFFF

end Int128

end GoLua
