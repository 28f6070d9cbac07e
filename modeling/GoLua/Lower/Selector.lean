import GoLua.Lower.Conversion
import GoLua.Lua.Access

/-!
# Selectors and receivers

A selector either qualifies a name by its package or selects a field or method of a value, perhaps
through embedded fields. Its resolution gives the way as places of fields; `resolvePath` turns it
into names, following at most one pointer at each step.

The last field of a way may stand for a property of a host object: it carries a tag, and the struct
that declares it starts with a field that holds the host object. Such a field is read from there and
internalized.

A method is called on a *receiver*: the value that the embedded fields lead to, its address if the
method is declared on a pointer, and a copy of it if the method is declared on a value.
-/

namespace GoLua

/-- Where a selection of a field leads. -/
structure FieldPath where
  /-- The names of the fields on the way. -/
  names : List String
  /-- The type of the last field. -/
  type : GoType
  /-- If the last field stands for a property of a host object: the field that holds the object, and
  the property. -/
  host : Option (String × String) := none

/-- The property that a field of a struct stands for. -/
def hostProperty? (config : Config) (fields : List Field) (field : Field) :
    Option (String × String) :=
  match field.hostTag, fields.head? with
  | some tag, some holder =>
    if config.isHostObject holder.type then some (holder.name, tag) else none
  | _, _ => none

/-- The way from a type along the places of fields. -/
def resolvePath (config : Config) (type : GoType) : List Nat → Except Construct FieldPath
  | [] => .ok { names := [], type }
  | i :: rest =>
    let holder := type.throughPointer
    match holder.fields? with
    | none => .error (.fieldSelectionOn holder)
    | some fields =>
      match fields[i]? with
      | none => .error (.fieldIndexBeyond i holder)
      | some field => do
        let path ← resolvePath config field.type rest
        let host := if rest.isEmpty then hostProperty? config fields field else path.host
        return { names := field.name :: path.names, type := path.type, host }

namespace Lower

open Lua

/-- The way along the places of fields, for a selector that is written somewhere. -/
def pathFrom (type : GoType) (index : List Nat) (span : Span) : LowerM FieldPath := do
  ofExcept ((← config (resolvePath · type index)).mapError fun c => .unsupported c span.start)

/-- A field of a value. -/
def field (self : Lowering) (base : Expr) (selection : Selection) (span : Span) :
    LowerM Fragment := do
  let path ← pathFrom selection.recv selection.index span
  match path.host with
  | some (holder, tag) =>
    let access := accessChain (path.names.dropLast ++ [holder]) ++ "[" ++ quote tag ++ "]"
    let raw ← render self ("%e" ++ access) [base]
    config (internalized · raw path.type)
  | none => render self ("%e" ++ accessChain path.names) [base]

/-! ### Receivers -/

/-- The expression that embedded fields lead to: the base itself, or a new selector. -/
def embeddedBase (base : Expr) (selection : Selection) (span : Span) : LowerM Expr := do
  if selection.index.length ≤ 1 then return base
  else
    let embedded := selection.index.dropLast
    let path ← pathFrom selection.recv embedded span
    let sel := Expr.ident (← synthesizeNode path.type span) (path.names.getLast?.getD "")
    let node ← synthesizeNode path.type span
    recordSelection node.id
      -- The last place is that of the method; those before it lead to its receiver.
      { selection with kind := .fieldVal, index := embedded, type := path.type }
    return .selector node base sel

/-- A copy of the value of a receiver, with a pointer to it followed. -/
def receiverValue (self : Lowering) (recv : Expr) (type : GoType) (span : Span) :
    LowerM Fragment := do
  match type.pointerElem? with
  | some elem => implicitCopy self (.star (← synthesizeNode elem span) recv) elem
  | none => implicitCopy self recv type

/-- The receiver of a method that is selected from a base. -/
def receiver (self : Lowering) (base : Expr) (selection : Selection) (span : Span) :
    LowerM Fragment := do
  let recv ← embeddedBase base selection span
  let type ← typeOf recv
  -- An interface value finds the method by itself.
  if type.isInterface then self recv none
  else if selection.obj.hasPointerReceiver then
    -- The address of a variable is taken by the call.
    if type.isPointer then self recv none
    else self (.unary (← synthesizeNode (.pointer type) span) .addrOf recv) none
  else
    let value ← receiverValue self recv type span
    let valueType := type.throughPointer
    -- Methods of such types live in the box, so the value is put into one.
    if ← config (·.isBoxed valueType) then
      render self (Support.box ++ "(" ++ quote valueType.text ++ ", %e)") [value]
    else return value

/-! ### Selectors -/

/-- `base.sel` -/
def selector (self : Lowering) (e base sel : Expr) : LowerM Fragment := do
  match ← selectionOf e with
  | none => identifier sel (sel.identName?.getD "")
  | some selection =>
    let name := quote selection.obj.name
    match selection.kind with
    | .fieldVal => field self base selection e.span
    | .methodVal =>
      let recv ← receiver self base selection e.span
      render self (Support.methodVal ++ "(%e, " ++ name ++ ")") [recv]
    | .methodExpr =>
      return .atom (if selection.recv.isInterface then callText Support.ifaceMethodExpr [name]
        else callText Support.methodExpr [quote selection.recv.text, name])

end Lower

end GoLua
