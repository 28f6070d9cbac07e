import GoLua.Lower.Index
import GoLua.Lower.Sequence

/-!
# Composite literals

Literals of arrays, slices, maps and structs. The values of a literal are evaluated in source order,
whatever slots they fill: when the texts that are not simple would come out in another order than
they were written in, they are moved into temporaries first.

* In an array or slice an element goes to the slot of its key, or to the slot after the element
  before it. Slots that no element fills hold the zero value of the element type.
* A struct literal with keys starts from the zero values of all fields. One without names every
  field in order.
* What is wrong with the keys of a literal is found before any of its values is lowered.
-/

namespace GoLua.Lower

open Lua

/-- A value of a literal with the slot that it fills and the type that it is converted to. -/
structure Slotted where
  slot : Nat
  value : Expr
  type : GoType

/-- Whether slots come one after the other. -/
def ascending : List Nat → Bool
  | i :: j :: rest => i < j && ascending (j :: rest)
  | _ => true

/-- Lowers values in source order, and gives the texts that fill the slots. -/
def slotTexts (self : Lowering) (values : List Slotted) : LowerM (List (Nat × String)) := do
  let lower (v : Slotted) : LowerM String := Fragment.text <$> implicitCopy self v.value v.type
  let parts ← inSequence "_k" {} (values.map lower)
  let slots := values.map Slotted.slot
  -- Lua evaluates a constructor slot by slot, which is source order if the slots ascend.
  let evaluated := (slots.zip parts.texts).filter fun p => !isSimple p.2
  let parts ← if ascending (evaluated.map Prod.fst) then pure parts else parts.move "_k"
  return slots.zip parts.texts

/-- Puts a text into a slot, opening slots before it as needed. -/
def fill (zero : String) (texts : List String) (slot : Nat × String) : List String :=
  (texts ++ List.replicate (slot.1 + 1 - texts.length) zero).set slot.1 slot.2

/-- The slot of an element of an array or slice with or without a key; `position` is the slot after
the element before it. -/
def elementSlot (position : Nat) (key : Option Expr) : LowerM Nat := do
  match key with
  | none => return position
  | some key =>
    match ← intConstantOf key with
    | none => unsupported key .nonConstantIndex
    | some i =>
      if 0 ≤ i ∧ i < 0x10000000000000000 then return i.toNat
      else unsupported key (.negativeIndex i)

/-- The slots of the elements of an array or slice from a position on. The program counts positions in
machine words and stops where a key below the last word is followed by an element without one; here
counting goes on. -/
def indexedSlots (elem : GoType) (position : Nat) : List Element → LowerM (List Slotted)
  | [] => return []
  | element :: rest => do
    let slot ← elementSlot position element.key
    return ⟨slot, element.value, elem⟩ :: (← indexedSlots elem (slot + 1) rest)

/-- The texts of the elements of an array or slice. The list of the texts is as long as the last slot
asks for, whatever that is; the program stops when it cannot hold a list that long. -/
def indexedElements (self : Lowering) (e : Expr) (elements : List Element) (elem : GoType)
    (len : Option Nat) : LowerM (List String) := do
  let zero ← zeroFor e elem
  let texts ← slotTexts self (← indexedSlots elem 0 elements)
  let values := texts.foldl (fill zero) []
  match len with
  | none => return values
  | some len =>
    if len < values.length then unsupported e (.arrayTooLong values.length len)
    else return values ++ List.replicate (len - values.length) zero

/-- The entries of a map literal. -/
def mapEntries (self : Lowering) (e : Expr) (key elem : GoType) :
    List Element → LowerM (List String)
  | [] => return []
  | element :: rest => do
    match element.key with
    | none => unsupported e .mapElementWithoutKey
    | some k =>
      let keyText ← mapKey self k key
      let value ← implicitCopy self element.value elem
      let entries ← mapEntries self e key elem rest
      return ("[" ++ keyText.text ++ "]=" ++ value.text) :: entries

/-- The slots of the elements of a struct literal with keys. -/
def keyedSlots (type : GoType) (fields : List Field) : List Element → LowerM (List Slotted)
  | [] => return []
  | element :: rest => do
    let name := (element.key.bind Expr.identName?).getD ""
    match fields.findIdx? (·.name == name), fields.find? (·.name == name) with
    | some slot, some field =>
      return ⟨slot, element.value, field.type⟩ :: (← keyedSlots type fields rest)
    | _, _ => fail (.unknownField type.text name element.value.location)

/-- The values of the fields of a struct literal with keys, or without elements. -/
def keyedFields (self : Lowering) (e : Expr) (type : GoType) (fields : List Field)
    (elements : List Element) : LowerM (List String) := do
  let zeros ← fields.mapM fun f => zeroFor e f.type
  let texts ← slotTexts self (← keyedSlots type fields elements)
  return texts.foldl (fun values t => values.set t.1 t.2) zeros

/-- The values of the fields of a struct literal without keys. -/
def positionalFields (self : Lowering) (e : Expr) (type : GoType) (fields : List Field)
    (elements : List Element) : LowerM (List String) :=
  if elements.length = fields.length then
    (elements.zip fields).mapM fun (element, field) =>
      Fragment.text <$> implicitCopy self element.value field.type
  else fail (.fieldCount type.text fields.length elements.length e.location)

/-- `T{...}`, or `&T{...}` with the address left out. -/
def composite (self : Lowering) (e : Expr) (elements : List Element) : LowerM Fragment := do
  let type := (← typeOf e).throughPointer
  match type.underlying with
  | .array elem len =>
    return .atom (arrayText (← indexedElements self e elements elem (some len)) elem len)
  | .slice elem =>
    return .atom (sliceText (← indexedElements self e elements elem none) elem)
  | .map key elem => return .atom (mapText (← mapEntries self e key elem elements) key elem)
  | .struct fields =>
    -- `T{}` has no keys, but leaves every field at its zero value.
    let keyed := elements.isEmpty || elements.any (·.key.isSome)
    let values ←
      if keyed then keyedFields self e type fields elements
      else positionalFields self e type fields elements
    return .atom (structText type (fields.map Field.name) values)
  | other => unsupported e (.compositeOf other)

end GoLua.Lower
