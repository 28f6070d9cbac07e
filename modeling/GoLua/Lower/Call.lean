import GoLua.Lower.Builtin
import GoLua.Lower.Host.Method
import GoLua.Lower.Selector
import GoLua.Lower.Sequence

/-!
# Calls

What looks like a call is a conversion, a predeclared function, a few intrinsics of the host bridge,
a method call or a plain call. The last two pass arguments, converted to the types of the
parameters and evaluated from left to right; a variadic function gets its last arguments as a slice.

A call that may suspend is not written where it stands. It becomes a pending statement with the next
resume step, and the expression lowers to the temporary that holds the result.
-/

namespace GoLua.Lower

open Lua

/-! ### Arguments -/

/-- The elements of the tuple that a single argument is, if it has several. -/
def spreadTypes (args : List Expr) : LowerM (Option (List GoType)) := do
  match args with
  | [single] =>
    match ← typeOf single with
    | .tuple types => return if 1 < types.length then some types else none
    | _ => return none
  | _ => return none

/-- Keeps a tuple in a temporary and gives an expression for each of its elements. -/
def spreadTuple (self : Lowering) (single : Expr) (types : List GoType) : LowerM (List Expr) := do
  let value ← self single none
  let tuple ← keepInTemporary "_tuple" value.text
  types.zipIdx.mapM fun (type, i) =>
    synthesizeVar (tuple ++ "[" ++ toString i ++ "]") type single.span

/-- The arguments that a call passes. -/
def effectiveArgs (self : Lowering) (args : List Expr) : LowerM (List Expr) := do
  match ← spreadTypes args, args with
  | some types, single :: _ => spreadTuple self single types
  | _, _ => return args

/-- The element type of the slice that a call packs its last arguments into, if it packs any. -/
def packedElem (e : Expr) (sig : Signature) (ellipsis : Bool) : LowerM (Option GoType) := do
  if sig.variadic && !ellipsis then
    match sig.params.getLast?.map GoType.underlying with
    | some (.slice elem) => return some elem
    | other => unsupported e (.variadicParameter other)
  else return none

/-- The type that the argument at a place is converted to: that of its parameter, or its own where
there are more arguments than parameters. -/
def argType (sig : Signature) (packed : Option GoType) (arg : Expr) (i : Nat) : LowerM GoType :=
  match packed, sig.params[i]? with
  | some elem, param =>
    if sig.params.length - 1 ≤ i then return elem else return param.getD elem
  | none, some param => return param
  | none, none => typeOf arg

/-- The texts of the arguments of a call. -/
def arguments (self : Lowering) (e : Expr) (sig : Signature) (args : List Expr) (ellipsis : Bool) :
    LowerM (List String) := do
  let args ← effectiveArgs self args
  let packed ← packedElem e sig ellipsis
  let parts ← inSequence "_arg" {} (args.zipIdx.map fun (arg, i) => do
    let type ← argType sig packed arg i
    return (← implicitCopy self arg type).text)
  match packed with
  | none => return parts.texts
  | some elem =>
    -- The last parameter is the slice; with nothing left for it, it is a nil slice.
    let fixed := sig.params.length - 1
    let extra := parts.texts.drop fixed
    let last := if extra.isEmpty then nilSliceText elem else sliceText extra elem
    return parts.texts.take fixed ++ [last]

/-! ### Calls of functions and methods -/

/-- A call where it stands, or the temporary for the result of a suspending one. -/
def placeCall (e : Expr) (sig : Signature) (call : String) : LowerM Fragment := do
  if ← isSuspending e then
    let step ← newStep
    -- A call without results is a statement of its own and leaves no text behind.
    if sig.results.isEmpty then
      push (.callAssign none call step)
      return .atom ""
    else
      let target ← newTemporary "_r"
      push (.callAssign (some target) call step)
      return .atom target
  else return .atom call

/-- A call of a text. -/
def callOf (self : Lowering) (e : Expr) (sig : Signature) (callee : String) (args : List Expr)
    (ellipsis : Bool) : LowerM Fragment := do
  placeCall e sig (callText callee (← arguments self e sig args ellipsis))

/-- The signature of what is called. -/
def signatureOf (func : Expr) : LowerM Signature := do
  let type ← typeOf func
  match type.signature? with
  | some sig => return sig
  | none => unsupported func (.callOf type)

/-- A call of a value. -/
def plainCall (self : Lowering) (e func : Expr) (args : List Expr) (ellipsis : Bool) :
    LowerM Fragment := do
  let sig ← signatureOf func
  let callee ← self func none
  callOf self e sig callee.callable args ellipsis

/-- A call of a method, of a selector that is written at `span`. -/
def methodCall (self : Lowering) (e func base : Expr) (selection : Selection) (span : Span)
    (args : List Expr) (ellipsis : Bool) : LowerM Fragment := do
  let sig ← signatureOf func
  let recv ← receiver self base selection span
  let declared := selection.obj.type.signature?.bind Signature.recv
  if ← config (fun c => declared.any c.isHostObject) then
    hostMethod self e recv selection.obj.name args ellipsis
  else callOf self e sig (recv.callable ++ ":" ++ safeName selection.obj.name) args ellipsis

/-- A call of a field that stands for a function of the host. -/
def hostFieldCall (self : Lowering) (func : Expr) (args : List Expr) : LowerM Fragment := do
  let sig ← signatureOf func
  let callee ← self func none
  let args ← externalizedArgs self args
  let call := Fragment.atom (callee.callable ++ "(" ++ args ++ ")")
  match sig.results with
  | [] => return call
  | [result] => config (internalized · call result)
  | _ =>
    reportError "field with js tag can not have func type with multiple results" func.span
    return call

/-- An intrinsic that is its first argument. -/
def firstArgument (self : Lowering) (e : Expr) (args : List Expr) : LowerM Fragment :=
  match args with
  | arg :: _ => self arg none
  | [] => unsupported e .intrinsicWithoutOperand

/-! ### What is called -/

/-- Whether an identifier denotes a type. -/
def denotesType (e : Expr) : LowerM Bool := do
  return (← boundObject? e).any (·.kind == .typeName)

/-- Whether an expression denotes a type. -/
def isTypeExpr (e : Expr) : LowerM Bool := do
  match e.unparen with
  | .typeExpr _ => return true
  | .ident _ _ => denotesType e.unparen
  | .selector _ _ sel =>
    if (← selectionOf e.unparen).isNone then denotesType sel else return false
  | _ => return false

/-- A call of an identifier. -/
def identifierCall (self : Lowering) (e func : Expr) (name : String) (args : List Expr)
    (ellipsis : Bool) : LowerM Fragment := do
  let obj ← objectOf func.unparen
  if obj.kind = .builtin then builtin self e name args ellipsis
  else if (← config (·.isHostPackage obj.package)) && obj.name == "InternalObject" then
    firstArgument self e args
  else plainCall self e func args ellipsis

/-- A call of a selector. -/
def selectorCall (self : Lowering) (e func base sel : Expr) (args : List Expr) (ellipsis : Bool) :
    LowerM Fragment := do
  let span := func.unparen.span
  match ← selectionOf func.unparen with
  | none =>
    let obj ← objectOf sel
    if ← config (·.isHostPackage obj.package) then
      match obj.name with
      | "Debugger" => return .atom (callText Support.debugger [])
      | "InternalObject" => firstArgument self e args
      | _ => plainCall self e func args ellipsis
    else plainCall self e func args ellipsis
  | some selection =>
    match selection.kind with
    | .methodVal => methodCall self e func base selection span args ellipsis
    | .fieldVal =>
      if (← pathFrom selection.recv selection.index span).host.isSome then
        hostFieldCall self func.unparen args
      else plainCall self e func args ellipsis
    | .methodExpr => plainCall self e func args ellipsis

/-- `func(args)` -/
def call (self : Lowering) (e func : Expr) (args : List Expr) (ellipsis : Bool) :
    LowerM Fragment := do
  if ← isTypeExpr func then
    match args with
    | value :: _ => conversion self value (← typeOf e)
    | [] => unsupported e .conversionWithoutOperand
  else
    match func.unparen with
    | .ident _ name => identifierCall self e func name args ellipsis
    | .selector _ base sel => selectorCall self e func base sel args ellipsis
    | _ => plainCall self e func args ellipsis

end GoLua.Lower
