/-!
# Halves of a cell

A cell of 64 bits as two words of 32. The lower word has no sign; the upper one has the sign of the
whole.
-/

namespace GoLua.Lua

/-- The upper word of the cell that holds an integer. -/
def highWord (signed : Bool) (n : Int) : Int :=
  if signed then Int.bmod n 0x10000000000000000 / 0x100000000
  else n % 0x10000000000000000 / 0x100000000

/-- The lower word of the cell that holds an integer. -/
def lowWord (n : Int) : Int :=
  n % 0x100000000

end GoLua.Lua
