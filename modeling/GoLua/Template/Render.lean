import GoLua.Emit.LowerM
import GoLua.Lua.Literal
import GoLua.Lua.Name
import GoLua.Lua.Support
import GoLua.Lua.Word
import GoLua.Number.Numeral
import GoLua.Template.Pattern

/-!
# Rendering templates

A template is rendered with operands, most of which are expressions still to be lowered. A pattern
may use an operand several times, but an expression must be evaluated once: if an operand that is
used more than once cannot be repeated, the whole becomes a function that is called on the spot, in
which the operand is bound to a local.

Binding one operand moves its evaluation to the front. So that no evaluation overtakes another, the
operands before it that cannot be repeated are bound as well, in their order.
-/

namespace GoLua

open Lua

/-- An operand of a template. -/
inductive Operand where
  | expr (e : Expr)
  /-- An expression that has been lowered already. -/
  | lowered (f : Fragment)
  | text (s : String)
  | int (n : Int)
  | operator (op : BinaryOp)

instance : Coe Expr Operand := ⟨.expr⟩

instance : Coe Fragment Operand := ⟨.lowered⟩

instance : Coe BinaryOp Operand := ⟨.operator⟩

namespace Template

open Lower

/-- Whether an operand may be written twice. -/
def isRepeatable : Operand → LowerM Bool
  | .expr e => isRepeatableExpr e
  | .lowered f => return isName f.text || isNumeral f.text
  | .text _ | .int _ | .operator _ => return true

/-- How often the pieces evaluate an operand. -/
def useCount (index : Nat) (ps : List Piece) : Nat :=
  ps.countP fun
    | .placeholder _ i tag => i == index && tag.evaluates
    | _ => false

/-- An operand with what decides whether it is bound to a local. -/
structure Slot where
  operand : Operand
  uses : Nat
  repeatable : Bool

/-- The slot of an operand at a place. -/
def slotFor (ps : List Piece) (o : Operand × Nat) : LowerM Slot := do
  return { operand := o.1, uses := useCount o.2 ps, repeatable := ← isRepeatable o.1 }

/-- Whether an operand is evaluated more often than it may be. -/
def Slot.mustBind (s : Slot) : Bool :=
  1 < s.uses && !s.repeatable

/-- The slots up to the last one that must be bound. -/
def bindingRange (slots : List Slot) : List Slot :=
  (slots.reverse.dropWhile fun s => !s.mustBind).reverse

/-- A generated local with the text of its value. -/
structure LocalBinding where
  name : String
  value : String

/-- Binds a slot to a local, unless it is not evaluated or may be repeated. -/
def bindSlot (self : Lowering) (s : Slot) : LowerM (Option LocalBinding) := do
  if s.uses == 0 || s.repeatable then return none
  match s.operand with
  | .expr e =>
    let value ← self e none
    return some { name := ← newLocal "_t", value := value.text }
  | .lowered f => return some { name := ← newLocal "_t", value := f.text }
  | _ => return none

/-! ### Placeholders -/

/-- Fails because a placeholder does not fit its operand. -/
def mismatch (pattern : String) (tag : Tag) (need : OperandNeed) : LowerM String :=
  fail (.malformedTemplate pattern (.operandMismatch tag.letter need))

/-- An operand as the operand of an operator; a bound one by its name. -/
def operandText (self : Lowering) (pattern : String) (tag : Tag) (operand : Operand)
    (bound : Option String) : LowerM String :=
  match bound, operand with
  | some name, _ => return name
  | none, .expr e => do return (← self e none).operand
  | none, .lowered f => return f.operand
  | none, _ => mismatch pattern tag .expression

/-- A lowered expression; constants need no brackets wherever they stand. -/
def expressionText (self : Lowering) (folded : Bool) (e : Expr) : LowerM String := do
  match ← constantOf e with
  | none => return (← self e none).operand
  | some c =>
    match folded, c.toInt? with
    | true, some n => return intLiteral n
    | _, _ => return (← self e none).text

/-- Half of the cell of an integer. -/
def halfText (self : Lowering) (pattern : String) (tag : Tag) (operand : Operand)
    (bound : Option String) : LowerM String := do
  let upper := tag == .high
  let signed ← match operand with
    | .expr e => (fun t => !t.isUnsigned) <$> typeOf e
    | _ => pure false
  let constant ← match operand with
    | .expr e => intConstantOf e
    | _ => pure none
  -- The halves of a constant are known, and nothing is evaluated.
  match constant with
  | some n => return toString (if upper then highWord signed n else lowWord n)
  | none =>
    let base ← operandText self pattern tag operand bound
    return if upper then
        if signed then callText Support.arshift [base, "32"] else "(" ++ base ++ " >> 32)"
      else "(" ++ base ++ " & 0xFFFFFFFF)"

/-- The real or imaginary part of a number. -/
def partText (self : Lowering) (pattern : String) (tag : Tag) (operand : Operand)
    (bound : Option String) : LowerM String := do
  let upper := tag == .realPart
  let constant ← match operand with
    | .expr e => constantOf e
    | _ => pure none
  match constant.bind fun c => if upper then c.re? else c.im? with
  | some x => return floatLiteral x
  | none =>
    let base ← operandText self pattern tag operand bound
    return base ++ if upper then ".real" else ".imag"

/-- What a placeholder writes of its operand. -/
def placeholderText (self : Lowering) (pattern : String) (tag : Tag) (operand : Operand)
    (bound : Option String) : LowerM String :=
  match tag with
  | .text =>
    match operand with
    | .text s => return s
    | .lowered f => return f.operand
    | .int n => return toString n
    | _ => mismatch pattern tag .text
  | .integer =>
    match operand with
    | .int n => return toString n
    | _ => mismatch pattern tag .integer
  | .operator =>
    match operand with
    | .operator op => return op.luaToken
    | _ => mismatch pattern tag .operator
  | .expression | .folded =>
    match bound, operand with
    | none, .expr e => expressionText self (tag == .folded) e
    | _, _ => operandText self pattern tag operand bound
  | .high | .low => halfText self pattern tag operand bound
  | .realPart | .imagPart => partText self pattern tag operand bound

/-- The text of a piece, given the operands with their names. -/
def pieceText (self : Lowering) (pattern : String) (operands : List (Operand × Option String)) :
    Piece → LowerM String
  | .literal text => return String.ofList text
  | .percent => return "%"
  | .placeholder _ index tag =>
    match operands[index]? with
    | some (operand, bound) => placeholderText self pattern tag operand bound
    | none => fail (.malformedTemplate pattern (.operandMissing index operands.length))

/-! ### Templates -/

/-- A text inside a function, called on the spot, that declares locals first. -/
def withLocals (bindings : List LocalBinding) (body : String) : String :=
  "(function() " ++ "; ".intercalate (bindings.map fun b => "local " ++ b.name ++ " = " ++ b.value)
    ++ "; return " ++ body ++ " end)()"

/-- The operands with the names of their locals. Past the binding range no operand has a name. -/
def withNames (operands : List Operand) (bound : List (Option LocalBinding)) :
    List (Operand × Option String) :=
  operands.zipIdx.map fun (operand, i) => (operand, (bound[i]?.join).map LocalBinding.name)

/-- Renders a pattern; `parens` says whether the text has an operator at its top. -/
def renderAs (parens : Bool) (self : Lowering) (pattern : String) (operands : List Operand) :
    LowerM Fragment := do
  match parse operands.length pattern with
  | .error fault => fail (.malformedTemplate pattern fault)
  | .ok ps =>
    let slots ← operands.zipIdx.mapM (slotFor ps)
    -- Lower the operands that are bound, in order, before any piece lowers one of its own.
    let bound ← (bindingRange slots).mapM (bindSlot self)
    let body := String.join (← ps.mapM (pieceText self pattern (withNames operands bound)))
    match bound.filterMap id with
    -- A call on the spot can be an operand whatever the pattern is.
    | [] => return { text := body, parens }
    | bindings => return .atom (withLocals bindings body)

end Template

/-- Renders a pattern as text that can be an operand as it is. -/
def render (self : Lowering) (pattern : String) (operands : List Operand) : LowerM Fragment :=
  Template.renderAs false self pattern operands

/-- Renders a pattern as text with an operator at its top. -/
def renderParen (self : Lowering) (pattern : String) (operands : List Operand) : LowerM Fragment :=
  Template.renderAs true self pattern operands

end GoLua
