import GoLua.Failure

/-!
# Patterns

The grammar of templates. A pattern mixes text with placeholders: a percent sign, perhaps the number
of an operand counted from one, and a letter that says what is written of the operand. A placeholder
without a number takes the operand after the one that the placeholder before it took. Two percent
signs stand for one, and take no operand.

`Template.parse` cuts a pattern into pieces, which keep the digits as they were written. It works
through the characters one by one, and the first fault from the left is the one that is told.
-/

namespace GoLua.Template

/-- What is written of an operand. -/
inductive Tag where
  /-- `e`: the lowered expression. -/
  | expression
  /-- `f`: the lowered expression, or the decimal of an integer constant. -/
  | folded
  /-- `h`: the upper 32 bits of an integer. -/
  | high
  /-- `l`: the lower 32 bits of an integer. -/
  | low
  /-- `r`: the real part of a number. -/
  | realPart
  /-- `i`: the imaginary part of a number. -/
  | imagPart
  /-- `s`: text as it is. -/
  | text
  /-- `d`: an integer in decimal. -/
  | integer
  /-- `t`: an operator in Lua's spelling. -/
  | operator
  deriving DecidableEq, Repr

namespace Tag

/-- The letter of a tag. -/
def letter : Tag → Char
  | .expression => 'e'
  | .folded => 'f'
  | .high => 'h'
  | .low => 'l'
  | .realPart => 'r'
  | .imagPart => 'i'
  | .text => 's'
  | .integer => 'd'
  | .operator => 't'

def ofLetter? : Char → Option Tag
  | 'e' => some .expression
  | 'f' => some .folded
  | 'h' => some .high
  | 'l' => some .low
  | 'r' => some .realPart
  | 'i' => some .imagPart
  | 's' => some .text
  | 'd' => some .integer
  | 't' => some .operator
  | _ => none

/-- Whether a placeholder with the tag evaluates its operand. -/
def evaluates : Tag → Bool
  | .text | .integer | .operator => false
  | _ => true

theorem ofLetter?_letter (t : Tag) : ofLetter? t.letter = some t := by cases t <;> rfl

end Tag

/-- A piece of a pattern. -/
inductive Piece where
  | literal (text : List Char)
  /-- Two percent signs. -/
  | percent
  /-- A placeholder: the digits of its number as written, the place of its operand counted from
  zero, and its tag. -/
  | placeholder (digits : List Char) (index : Nat) (tag : Tag)
  deriving DecidableEq, Repr

/-- How a piece is written in a pattern. -/
def Piece.spelling : Piece → List Char
  | .literal text => text
  | .percent => ['%', '%']
  | .placeholder digits _ tag => '%' :: digits ++ [tag.letter]

/-- Puts a character in front of pieces, joining it to a literal that they start with. -/
def consChar (c : Char) : List Piece → List Piece
  | .literal text :: ps => .literal (c :: text) :: ps
  | ps => .literal [c] :: ps

/-- The place of the operand that the digits of a placeholder number; none if there are no digits.
The number has to fit a word of 64 bits. -/
def numberedOperand (digits : List Char) : Except TemplateFault (Option Nat) :=
  if digits.isEmpty then .ok none
  else
    let n := digits.foldl (fun n c => n * 10 + (c.toNat - '0'.toNat)) 0
    if 0x10000000000000000 ≤ n then .error .hugeIndex
    else if n = 0 then .error .zeroIndex
    else .ok (some (n - 1))

/-- The character that a tag outside ASCII is told as: the one with the number of its first UTF-8
byte. -/
def leadByte (c : Char) : Char :=
  let n := c.toNat
  if n < 0x80 then c
  else if n < 0x800 then Char.ofNat (0xC0 + n / 0x40)
  else if n < 0x10000 then Char.ofNat (0xE0 + n / 0x1000)
  else Char.ofNat (0xF0 + n / 0x40000)

/-- The pieces of the rest of a pattern with `count` operands. `running` is the operand of a
placeholder without a number; within a placeholder, `digits?` are those read so far. -/
def pieces (count : Nat) : Nat → Option (List Char) → List Char → Except TemplateFault (List Piece)
  | _, none, [] => .ok []
  | running, none, c :: cs =>
    if c = '%' then pieces count running (some []) cs
    else (pieces count running none cs).map (consChar c)
  | _, some digits, [] => do
    -- A fault of the number is told before the missing letter.
    let _ ← numberedOperand digits
    .error .missingTag
  | running, some digits, c :: cs =>
    if c.isDigit then pieces count running (some (digits ++ [c])) cs
    else do
      let numbered ← numberedOperand digits
      -- Only a bare `%%` is an escape; behind a number the second sign is no known tag.
      if c = '%' ∧ numbered = none then
        return .percent :: (← pieces count running none cs)
      else
        match Tag.ofLetter? c with
        | none => .error (.unknownTag (leadByte c))
        | some tag =>
          let index := numbered.getD running
          if count ≤ index then .error (.operandMissing index count)
          -- A numbered placeholder moves the running operand as well.
          else return .placeholder digits index tag :: (← pieces count (index + 1) none cs)

/-- The pieces of a pattern with `count` operands. -/
def parse (count : Nat) (pattern : String) : Except TemplateFault (List Piece) :=
  pieces count 0 none pattern.toList

end GoLua.Template
