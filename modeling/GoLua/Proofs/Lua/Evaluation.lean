import GoLua.Lua.Support
import GoLua.Proofs.Lua.Reader

/-!
# Evaluating Lua expressions

What an expression comes to, given what the global names hold: integers are cells of 64 bits, in which
all operators wrap; a shift by 64 or more leaves nothing, and one by a negative count goes the other
way; integers are compared with their sign. What has no meaning for integers and truth values is a
fault, and so is what the library does with a divisor of zero.

The library is written elsewhere. `Library` says what of it is relied on: which functions its names
stand for, and that Lua's least integer is where it belongs.
-/

namespace GoLua.Lua

/-- Why an expression has no value. -/
inductive Fault where
  | divideByZero
  /-- An operation on what it is not meant for. -/
  | wrongType
  deriving DecidableEq, Repr

/-- What a table is asked for. -/
inductive Key where
  | name (name : String)
  | number (value : BitVec 64)
  deriving DecidableEq, Repr

/-- A value. Of functions, only those of the library on integers are known. -/
inductive Value where
  | nil
  | truth (value : Bool)
  | integer (value : BitVec 64)
  | table (entries : Key → Value)
  | function (result : List (BitVec 64) → Except Fault (BitVec 64))

namespace Value

/-- Everything but `nil` and `false` counts as true. -/
def isTrue : Value → Bool
  | .nil | .truth false => false
  | _ => true

/-- What a table holds. -/
def entry (key : Key) : Value → Except Fault Value
  | .table entries => .ok (entries key)
  | _ => .error .wrongType

/-- A table indexed by a value. -/
def atIndex (table : Value) : Value → Except Fault Value
  | .integer n => table.entry (.number n)
  | _ => .error .wrongType

/-- The integers that values are. -/
def integers : List Value → Except Fault (List (BitVec 64))
  | [] => .ok []
  | .integer n :: vs => (integers vs).map (n :: ·)
  | _ => .error .wrongType

/-- A function applied to values. -/
def apply (args : List Value) : Value → Except Fault Value
  | .function result => do
    let n ← result (← integers args)
    return .integer n
  | _ => .error .wrongType

end Value

/-! ### Operators -/

/-- A shift to the left. Counts have a sign, and a negative one shifts to the right. -/
def shiftedLeft (a count : BitVec 64) : BitVec 64 :=
  if count.msb then a >>> (-count).toNat else a <<< count.toNat

/-- A shift to the right, which fills with zeros. -/
def shiftedRight (a count : BitVec 64) : BitVec 64 :=
  if count.msb then a <<< (-count).toNat else a >>> count.toNat

/-- An operator with one operand. -/
def Unary.apply : Unary → Value → Except Fault Value
  | .neg, .integer n => .ok (.integer (-n))
  | .bitNot, .integer n => .ok (.integer (~~~n))
  | .not, v => .ok (.truth !v.isTrue)
  | _, _ => .error .wrongType

/-- What an operator makes of two integers. -/
def Binary.ofIntegers (a b : BitVec 64) : Binary → Value
  | .lt => .truth (a.slt b)
  | .gt => .truth (b.slt a)
  | .le => .truth (a.sle b)
  | .ge => .truth (b.sle a)
  | .eq => .truth (a == b)
  | .ne => .truth (a != b)
  | .bitOr => .integer (a ||| b)
  | .bitXor => .integer (a ^^^ b)
  | .bitAnd => .integer (a &&& b)
  | .shiftLeft => .integer (shiftedLeft a b)
  | .shiftRight => .integer (shiftedRight a b)
  | .add => .integer (a + b)
  | .sub => .integer (a - b)
  | .mul => .integer (a * b)
  -- The connectives give one of their operands.
  | .and => .integer b
  | .or => .integer a

/-- An operator with two operands. -/
def Binary.apply : Binary → Value → Value → Except Fault Value
  | .and, a, b => .ok (if a.isTrue then b else a)
  | .or, a, b => .ok (if a.isTrue then a else b)
  | op, .integer a, .integer b => .ok (op.ofIntegers a b)
  | .eq, .truth a, .truth b => .ok (.truth (a == b))
  | .ne, .truth a, .truth b => .ok (.truth (a != b))
  | _, _, _ => .error .wrongType

/-- Whether an operator has its result from its left operand alone. -/
def Binary.decides (a : Value) : Binary → Bool
  | .and => !a.isTrue
  | .or => a.isTrue
  | _ => false

/-! ### Expressions -/

mutual

/-- The value of an expression, given what the global names hold. -/
def Exp.eval (globals : String → Value) : Exp → Except Fault Value
  | .integer n => .ok (.integer n)
  | .truth b => .ok (.truth b)
  | .name name => .ok (globals name)
  | .field table name => do (← table.eval globals).entry (.name name)
  | .index table key => do
    let t ← table.eval globals
    t.atIndex (← key.eval globals)
  | .call function args => do
    let f ← function.eval globals
    f.apply (← evalAll globals args)
  | .unary op e => do op.apply (← e.eval globals)
  | .binary op left right => do
    let a ← left.eval globals
    if op.decides a then return a else op.apply a (← right.eval globals)
termination_by structural e => e

/-- The values of several expressions, from left to right. -/
def evalAll (globals : String → Value) : List Exp → Except Fault (List Value)
  | [] => .ok []
  | e :: es => do
    let v ← e.eval globals
    return v :: (← evalAll globals es)
termination_by structural es => es

end

/-! ### The library -/

/-- A function of the library of two integers. -/
def ofTwo (f : BitVec 64 → BitVec 64 → Except Fault (BitVec 64)) : Value :=
  .function fun
    | [a, b] => f a b
    | _ => .error .wrongType

/-- A function of the library that divides, and checks the divisor first. -/
def dividing (f : BitVec 64 → BitVec 64 → BitVec 64) : Value :=
  ofTwo fun a b => if b = 0 then .error .divideByZero else .ok (f a b)

/-- **The library is in place.** Division and remainder cut towards zero, with and without a sign, and
the arithmetic shift to the right fills with the sign. -/
structure Library (globals : String → Value) : Prop where
  intDiv : globals Support.intDiv = dividing BitVec.sdiv
  intMod : globals Support.intMod = dividing BitVec.srem
  uintDiv : globals Support.uintDiv = dividing BitVec.udiv
  uintMod : globals Support.uintMod = dividing BitVec.umod
  arshift : globals Support.arshift = ofTwo fun a count => .ok (a.sshiftRight count.toNat)
  minInteger : ∃ math, globals "math" = .table math ∧
    math (.name "mininteger") = .integer (BitVec.intMin 64)

/-- The global names with the library under its names and other values under other names. -/
def withLibrary (others : String → Value) (name : String) : Value :=
  if name = Support.intDiv then dividing BitVec.sdiv
  else if name = Support.intMod then dividing BitVec.srem
  else if name = Support.uintDiv then dividing BitVec.udiv
  else if name = Support.uintMod then dividing BitVec.umod
  else if name = Support.arshift then ofTwo fun a count => .ok (a.sshiftRight count.toNat)
  else if name = "math" then
    .table fun key => if key = .name "mininteger" then .integer (BitVec.intMin 64) else .nil
  else others name

/-- There is such a library, whatever the other names hold. -/
theorem library_withLibrary (others : String → Value) : Library (withLibrary others) where
  intDiv := rfl
  intMod := rfl
  uintDiv := rfl
  uintMod := rfl
  arshift := rfl
  minInteger := ⟨_, rfl, rfl⟩

/-- The library, with an integer in the global name `x`. -/
def holdingX (value : BitVec 64) : String → Value :=
  withLibrary fun name => if name = "x" then .integer value else .nil

/-! ### Operations on integers -/

section

variable {globals : String → Value} {a b : Exp} {m n : BitVec 64}

theorem eval_unary (op : Unary) :
    (Exp.unary op a).eval globals = a.eval globals >>= op.apply := rfl

/-- An operator that is no connective evaluates its operands from left to right. -/
theorem eval_binary (op : Binary) (hop : op ≠ .and ∧ op ≠ .or) :
    (Exp.binary op a b).eval globals =
      a.eval globals >>= fun x => b.eval globals >>= fun y => op.apply x y := by
  rw [Exp.eval]
  cases op <;> first
    | rfl
    | exact absurd rfl hop.1
    | exact absurd rfl hop.2

/-- A call evaluates its arguments from left to right. -/
theorem eval_call (function : String) :
    (Exp.call (.name function) [a, b]).eval globals =
      a.eval globals >>= fun x => b.eval globals >>= fun y => (globals function).apply [x, y] := by
  cases ha : a.eval globals <;> cases hb : b.eval globals <;> simp [Exp.eval, evalAll, ha, hb] <;> rfl

theorem apply_ofTwo (f : BitVec 64 → BitVec 64 → Except Fault (BitVec 64)) (m n : BitVec 64) :
    (ofTwo f).apply [.integer m, .integer n] = (f m n).map .integer := by
  change (f m n).bind (fun n => Except.ok (Value.integer n)) = _
  cases f m n <;> rfl

end

end GoLua.Lua
