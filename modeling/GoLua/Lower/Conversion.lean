import GoLua.Go.Type.Identity
import GoLua.Lower.Host.Value
import GoLua.Lower.Identifier

/-!
# Conversions

Explicit conversions, the implicit ones of assignments, arguments and results, and type assertions.

A conversion between identical types does nothing, and `nil` becomes the zero value of its target.
Otherwise the underlying type of the target decides which sources there are; a pair outside the
table is a failure. An aggregate is copied when it is converted implicitly, unless a literal has
just built it.

A pointer to a value that is no aggregate is an accessor, a pair of a getter and a setter. To point
at the same place under another type, a new accessor is put around it, which converts in both
directions; the recursion descends in both types (`sizeOf_lt_of_pointerElem?`).
-/

namespace GoLua.Lower

open Lua

/-- Fails because there is no conversion between two types. -/
def noConversion (e : Expr) (source target : GoType) : LowerM Fragment :=
  fail (.conversion source.text target.text e.location)

/-! ### Implicit conversions -/

/-- An expression lowered for an assignment, an argument or a result. A value that becomes an
interface value is wrapped as its type requires. -/
def implicit (self : Lowering) (e : Expr) (desired : GoType) : LowerM Fragment := do
  let type ← typeOf e
  if type.identical desired then self e none
  else if type.isUntypedNil then return .atom (← zeroFor e desired)
  else if desired.isInterface && !type.isInterface then
    if ← config (·.isHostObject type) then wrappedHostObject self e
    else if ← config (·.isBoxed type) then
      render self (Support.box ++ "(" ++ quote type.text ++ ", %e)") [e]
    else if type.isStruct then render self "%1e.__constructor.elem(%1e)" [e]
    else self e (some desired)
  else self e (some desired)

/-- As `implicit`, with a copy made of an aggregate that is not fresh. -/
def implicitCopy (self : Lowering) (e : Expr) (desired : GoType) : LowerM Fragment :=
  if desired.isAggregate && !e.unparen.isCompositeLit then
    render self (Support.clone ++ "(%e, " ++ quote desired.text ++ ")") [e]
  else implicit self e desired

/-! ### Explicit conversions -/

/-- A conversion to an integer kind. Floats are cut towards zero. -/
def toIntegerKind (self : Lowering) (e : Expr) (source target : GoType) (kind : Kind) :
    LowerM Fragment := do
  match source.basicKind? with
  | none => noConversion e source target
  | some inner =>
    if inner.isInteger then
      let value ← self e none
      return if rangeContains kind inner || !needsCut kind then value else cutToWidth value kind
    else if inner.isFloat then
      let whole ← renderParen self "%1e >= 0 and math.floor(%1e) or math.ceil(%1e)" [e]
      return cutToWidth whole kind
    else if inner = .unsafePointer then self e none
    else noConversion e source target

/-- A conversion to a float kind. -/
def toFloatKind (self : Lowering) (e : Expr) (source target : GoType) : LowerM Fragment :=
  match source.basicKind? with
  | none => noConversion e source target
  | some inner =>
    if inner.isInteger then renderParen self "%e + 0.0" [e]
    else if inner.isFloat then self e none
    else noConversion e source target

/-- A conversion to a string kind, from an integer, a string or a slice. -/
def toStringKind (self : Lowering) (e : Expr) (source target : GoType) : LowerM Fragment :=
  match source.underlying with
  | .basic inner =>
    if inner.isInteger then render self (Support.encodeRune ++ "(%e)") [e]
    else if inner.isString then self e none
    else noConversion e source target
  | .slice _ =>
    let helper := if source.isRuneSlice then Support.runesToString else Support.bytesToString
    render self (helper ++ "(%e)") [e]
  | _ => noConversion e source target

/-- A conversion to a type with an underlying kind. -/
def toKind (self : Lowering) (e : Expr) (source target : GoType) (kind : Kind) : LowerM Fragment :=
  if kind.isInteger then toIntegerKind self e source target kind
  else if kind.isFloat then toFloatKind self e source target
  else if kind.isComplex then
    if source.basicKind?.any Kind.isComplex then self e none else noConversion e source target
  else if kind.isString then toStringKind self e source target
  else if kind = .unsafePointer && (source.isPointer || source.basicKind? == some .uintptr) then
    self e none
  else if kind.isTruth && source.basicKind?.any Kind.isTruth then self e none
  else noConversion e source target

/-- A conversion to a slice, from a string or another slice. -/
def toSlice (self : Lowering) (e : Expr) (source target : GoType) : LowerM Fragment :=
  if source.isString then
    let helper := if target.isRuneSlice then Support.stringToRunes else Support.stringToBytes
    render self (helper ++ "(%e)") [e]
  else
    match source.underlying with
    | .slice _ => self e none
    | _ => noConversion e source target

/-- The accessor around another accessor, with the texts that convert what it gets and sets. -/
def retypedAccessor (pointer source getter parameter setter : String) : String :=
  "(function() local " ++ pointer ++ " = " ++ source ++ "; return " ++ Support.newAccessor ++
    "(function() return " ++ getter ++ " end, function(" ++ parameter ++ ") " ++ pointer ++
    ".set(" ++ setter ++ ") end) end)()"

/-- An explicit conversion of an expression of type `source`. -/
def convertFrom (self : Lowering) (e : Expr) (source target : GoType) : LowerM Fragment := do
  if source.identical target then self e none
  else if source.isUntypedNil then return .atom (← zeroFor e target)
  else
    match ht : target.underlying with
    | .basic kind => toKind self e source target kind
    | .slice _ => toSlice self e source target
    | .pointer targetElem =>
      if targetElem.isAggregate || source.basicKind? == some .unsafePointer then self e none
      else
        match hs : source.pointerElem? with
        | none => noConversion e source target
        | some sourceElem =>
          have hsource := GoType.sizeOf_lt_of_pointerElem? hs
          have htarget : sizeOf targetElem < sizeOf target :=
            GoType.sizeOf_lt_of_pointerElem? (by simp [GoType.pointerElem?, ht])
          -- The texts of the getter and the setter come from conversions of new nodes, so that they
          -- are lowered as any conversion in the source would be.
          let inner ← self e none
          let pointer ← newLocal "_ptr"
          let parameter ← newLocal "_v"
          let pointerVar ← synthesizeVar pointer source e.span
          let deref := Expr.star (← synthesizeNode sourceElem e.span) pointerVar
          let getter ← convertFrom self deref sourceElem targetElem
          let valueVar ← synthesizeVar parameter targetElem e.span
          let setter ← convertFrom self valueVar targetElem sourceElem
          return .atom
            (retypedAccessor pointer inner.text getter.text parameter setter.text)
    | .interface _ =>
      if source.basicKind? == some .unsafePointer then self e none
      else implicitCopy self e target
    | _ => implicitCopy self e target
termination_by sizeOf source + sizeOf target

section

variable {self : Lowering} {e : Expr} {source target elem : GoType} {kind : Kind}
  (hdistinct : source.identical target = false) (hvalue : source.isUntypedNil = false)

include hdistinct hvalue

/-- A target with a kind is converted to as its kind requires. -/
theorem convertFrom_of_kind (htarget : target.underlying = .basic kind) :
    convertFrom self e source target = toKind self e source target kind := by
  rw [convertFrom, if_neg (by simp [hdistinct]), if_neg (by simp [hvalue])]
  split <;> simp_all

theorem convertFrom_of_slice (htarget : target.underlying = .slice elem) :
    convertFrom self e source target = toSlice self e source target := by
  rw [convertFrom, if_neg (by simp [hdistinct]), if_neg (by simp [hvalue])]
  split <;> simp_all

/-- A pointer to an aggregate is the aggregate, whatever it is converted from. -/
theorem convertFrom_of_aggregate (htarget : target.underlying = .pointer elem)
    (helem : elem.isAggregate = true) : convertFrom self e source target = self e none := by
  rw [convertFrom, if_neg (by simp [hdistinct]), if_neg (by simp [hvalue])]
  split <;> simp_all

end

/-- An explicit conversion. -/
def conversion (self : Lowering) (e : Expr) (target : GoType) : LowerM Fragment := do
  convertFrom self e (← typeOf e) target

/-! ### Type assertions -/

/-- A type assertion; in its comma-ok form the library is asked for both results. Without a type it
is the guard of a type switch, and lowers to what is asserted about. -/
def typeAssertion (self : Lowering) (e base : Expr) (asserted : Option Expr) :
    LowerM Fragment := do
  match asserted with
  | none => self base none
  | some asserted =>
    let target ← typeOf asserted
    let commaOk := (← typeOf e).isTuple
    let ending := if commaOk then ", true)" else ")"
    render self (Support.assertType ++ "(%e, " ++ quote target.text ++ ending) [base]

end GoLua.Lower
