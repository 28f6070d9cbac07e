import GoLua.Emit.LowerM
import GoLua.Lua.Name
import GoLua.Number.Numeral

/-!
# Lowering in sequence

Several expressions that become parts of one text, such as the arguments of a call, have to be
evaluated from left to right. Their texts are, where they stand. But a part that leaves pending
statements has its effects before the whole text, and so would overtake the parts to its left.

Therefore the texts of those parts are moved into temporaries, which are assigned before the new
statements, unless nothing can happen to them in between: names, numbers, string literals and the
words of the language are *simple* and stay.
-/

namespace GoLua.Lower

open Lua

/-- Whether a text has the same value before and after other statements, and no effects. -/
def isSimple (text : String) : Bool :=
  isName text || isNumeral text || text == "nil" || text == "true" || text == "false" ||
    match text.toList with
    | '"' :: r => r.getLast? == some '"'
    | _ => false

/-- Moves each text that is not simple into a temporary, in order. -/
def moveToTemporaries (hint : String) : List String → LowerM (List String)
  | [] => return []
  | text :: texts => do
    if isSimple text then return text :: (← moveToTemporaries hint texts)
    else return (← keepInTemporary hint text) :: (← moveToTemporaries hint texts)

/-- The texts of the parts so far; the first `moved` of them need no temporary any more. -/
structure Parts where
  texts : List String := []
  moved : Nat := 0

/-- The texts that may still need a temporary. -/
def Parts.open (parts : Parts) : List String :=
  parts.texts.drop parts.moved

/-- Moves every open text into a temporary. -/
def Parts.move (hint : String) (parts : Parts) : LowerM Parts := do
  let moved ← moveToTemporaries hint parts.open
  return { texts := parts.texts.take parts.moved ++ moved, moved := parts.texts.length }

/-- Adds the text of the next part. If lowering it left statements, the open texts are moved and
assigned before these statements. -/
def Parts.add (hint : String) (parts : Parts) (lower : LowerM String) : LowerM Parts := do
  let mark ← pendingCount
  let text ← lower
  if (← pendingCount) = mark then return { parts with texts := parts.texts ++ [text] }
  else
    -- What the part left runs after the parts to its left: their moves come between.
    let later ← splitPending mark
    let parts ← parts.move hint
    putBack later
    return { parts with texts := parts.texts ++ [text] }

/-- Lowers parts from left to right. -/
def inSequence (hint : String) (parts : Parts) : List (LowerM String) → LowerM Parts
  | [] => return parts
  | lower :: rest => do inSequence hint (← parts.add hint lower) rest

end GoLua.Lower
