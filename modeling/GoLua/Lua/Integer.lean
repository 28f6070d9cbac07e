import GoLua.Go.Kind
import GoLua.Lua.Fragment
import GoLua.Number.Width

/-!
# Integers in 64-bit cells

Lua has one sort of integer, a cell of 64 bits that wraps. Go has many. The kinds that fill the cell
need no care, and neither does `int32`, whose results are left in the cell; the results of narrower
kinds are cut to their width after each step that can leave it.

Cutting happens twice over: `wrapInteger` cuts a constant while the program is compiled, and
`cutToWidth` writes the expression that cuts a value when it runs.
-/

namespace GoLua.Lua

/-- Whether the results of a kind are cut when the program runs. -/
def needsCut : Kind → Bool
  | .int8 | .int16 | .uint8 | .uint16 | .uint32 | .uint | .uintptr => true
  | _ => false

/-- The expression that cuts an integer to the width and sign of a kind. A signed value is moved up
by half the range, masked, and moved back. -/
def cutToWidth (value : Fragment) (kind : Kind) : Fragment :=
  let mask (width : Nat) := toString (wordCount width - 1)
  let masked (width : Nat) := .operation (value.operand ++ " & " ++ mask width)
  let centred (width : Nat) :=
    let half := toString (wordCount (width - 1))
    .operation ("((" ++ value.operand ++ " + " ++ half ++ ") & " ++ mask width ++ ") - " ++ half)
  match kind with
  | .int8 => centred 8
  | .int16 => centred 16
  | .uint8 => masked 8
  | .uint16 => masked 16
  -- The mask of 32 bits is written in hexadecimal, the narrower ones in decimal.
  | .uint32 | .uint | .uintptr => .operation (value.operand ++ " & 0xFFFFFFFF")
  | _ => value

/-- The representative of an integer in the range of a kind. Untyped constants have no range. -/
def wrapInteger (n : Int) (kind : Kind) : Int :=
  if kind.isUntyped || !kind.isInteger then n
  else
    match kind.bitWidth? with
    | none => n
    | some width =>
      if kind.isUnsigned then n % wordCount width
      else (n + wordCount (width - 1)) % wordCount width - wordCount (width - 1)

/-- Whether every value of the kind `inner` is a value of the kind `outer`. -/
def rangeContains (outer inner : Kind) : Bool :=
  match outer.bitWidth?, inner.bitWidth? with
  | some w, some v =>
    match outer.isUnsigned, inner.isUnsigned with
    | true, true | false, false => v ≤ w
    | false, true => v < w
    | true, false => false
  | _, _ => false

theorem cutToWidth_of_not_needsCut {kind : Kind} (h : needsCut kind = false) (f : Fragment) :
    cutToWidth f kind = f := by
  cases kind <;> simp_all [needsCut, cutToWidth]

end GoLua.Lua
