import GoLua.Proofs.ResumeSteps

/-!
# Lowering with its calls counted

Lowering recurs in two ways. The rules lower parts, and new nodes around parts, through the `Lowering`
that they are given. A conversion between pointers converts again, in both directions, what the pointers
point to.

Here both go through a counter. `nested deepest n` has `n` levels; each lowering and each conversion takes
one, and what is inside of it starts with one less. When no level is left, `deepest` takes over, which may
do anything at all. So if a run with `n` levels is the run of the program whatever `deepest` is, then at
most `n` calls have been inside one another.

The rules are those of the program: with conversions that are not counted, they are the program's own
(`convertOnce_convertFrom`, `expressionWith_convertFrom`).
-/

namespace GoLua

namespace Lower

open Lua

/-- How an expression is converted, from a type and to another one. -/
abbrev Converting := Expr → GoType → GoType → LowerM Fragment

/-! ### Conversions -/

/-- An explicit conversion, given how what a pointer points to is converted. -/
def convertOnce (self : Lowering) (inner : Converting) : Converting := fun e source target => do
  if source.identical target then self e none
  else if source.isUntypedNil then return .atom (← zeroFor e target)
  else
    match target.underlying with
    | .basic kind => toKind self e source target kind
    | .slice _ => toSlice self e source target
    | .pointer targetElem =>
      if targetElem.isAggregate || source.basicKind? == some .unsafePointer then self e none
      else
        match source.pointerElem? with
        | none => noConversion e source target
        | some sourceElem =>
          let value ← self e none
          let pointer ← newLocal "_ptr"
          let parameter ← newLocal "_v"
          let pointerVar ← synthesizeVar pointer source e.span
          let deref := Expr.star (← synthesizeNode sourceElem e.span) pointerVar
          let getter ← inner deref sourceElem targetElem
          let valueVar ← synthesizeVar parameter targetElem e.span
          let setter ← inner valueVar targetElem sourceElem
          return .atom
            (retypedAccessor pointer value.text getter.text parameter setter.text)
    | .interface _ =>
      if source.basicKind? == some .unsafePointer then self e none
      else implicitCopy self e target
    | _ => implicitCopy self e target

/-- With conversions as they are for what pointers point to, one step of a conversion is the
conversion. -/
theorem convertOnce_convertFrom (self : Lowering) :
    convertOnce self (convertFrom self) = convertFrom self := by
  funext e source target
  rw [convertFrom, convertOnce]
  dsimp only
  generalize target.underlying = u
  generalize source.pointerElem? = elem
  cases u with
  | pointer targetElem => cases elem <;> rfl
  | _ => rfl

/-! ### Expressions -/

/-- A call, given how conversions are done. -/
def callWith (self : Lowering) (convert : Converting) (e func : Expr) (args : List Expr)
    (ellipsis : Bool) : LowerM Fragment := do
  if ← isTypeExpr func then
    match args with
    | value :: _ =>
      let target ← typeOf e
      convert value (← typeOf value) target
    | [] => unsupported e .conversionWithoutOperand
  else
    match func.unparen with
    | .ident _ name => identifierCall self e func name args ellipsis
    | .selector _ base sel => selectorCall self e func base sel args ellipsis
    | _ => plainCall self e func args ellipsis

/-- An expression without a constant value, given how conversions are done. Calls are the only form that
asks for one. -/
def formWith (self : Lowering) (convert : Converting) (e : Expr) (desired : Option GoType) :
    LowerM Fragment :=
  match e with
  | .call _ func args ellipsis => callWith self convert e func args ellipsis
  | e => byForm self e desired

/-- An expression, given how its parts are lowered and how conversions are done. -/
def expressionWith (self : Lowering) (convert : Converting) : Lowering := fun e desired => do
  let type ← typeOf e
  match ← constantOf e with
  | some c => ofExcept (c.lower type desired e.location)
  | none =>
    recordLowered e
    formWith self convert e desired

/-- With the conversion as it is, the rules by form are the rules by form. -/
theorem formWith_convertFrom (self : Lowering) (e : Expr) (desired : Option GoType) :
    formWith self (convertFrom self) e desired = byForm self e desired := by
  cases e <;> rfl

/-- So lowering with conversions apart is lowering. -/
theorem expressionWith_convertFrom (self : Lowering) :
    expressionWith self (convertFrom self) = expression self := by
  funext e desired
  simp only [expressionWith, formWith_convertFrom]
  rfl

/-! ### Levels -/

/-- How expressions are lowered and converted. -/
structure Calls where
  lower : Lowering
  convert : Converting

/-- Lowering and converting with `n` levels. -/
def nested (deepest : Calls) : Nat → Calls
  | 0 => deepest
  | n + 1 =>
    let inner := nested deepest n
    ⟨expressionWith inner.lower inner.convert, convertOnce inner.lower inner.convert⟩

end Lower

open Lower

/-- The run that answers a request by certain calls. -/
def Request.runWith (calls : Calls) : Request → LowerM Fragment
  | .expression e desired => calls.lower e desired
  | .conversion e target => do calls.convert e (← typeOf e) target
  | .implicit e target => Lower.implicit calls.lower e target
  | .implicitCopy e target => Lower.implicitCopy calls.lower e target
  | .template parens pattern operands => Template.renderAs parens calls.lower pattern operands

end GoLua
