import GoLua.Config
import GoLua.Emit.FunctionState
import GoLua.Failure
import GoLua.Lua.Fragment

/-!
# The lowering monad

What lowering an expression reads and changes. It reads the facts, the suspension marks, the
configuration and, where there is one, the source of function bodies; it changes the state of the
function. A failure keeps the changes made before it, because the names, steps and node numbers that
were handed out by then must not be handed out again.

A fact about a node is looked up in the overlay of synthesized nodes first and in the facts of the
program second. Lowering looks at facts through the functions of this module only.
-/

namespace GoLua

/-- The text of a function, and the escaping variables that it captures. -/
structure FunctionText where
  code : String
  captured : List String := []

/-- Gives the text of a function literal, from the requests for bodies so far: the latest comes
first and is the one to be answered, but all that were made before may bear on the answer. -/
abbrev BodySource := List (Nat × Signature) → Except CompileError FunctionText

/-- What lowering reads. -/
structure Env where
  facts : Facts := {}
  marks : Marks := {}
  config : Config := {}
  bodies : Option BodySource := none
  /-- The connectives whose right operands are being lowered, the innermost first. -/
  inside : List NodeId := []

instance : Inhabited Env := ⟨{}⟩

/-- Computations that lower expressions. -/
abbrev LowerM := ReaderT Env (ExceptT CompileError (StateM FunctionState))

/-- How the parts of an expression are lowered. A type that is desired of a constant only decides
the width of an integer. -/
abbrev Lowering := Expr → Option GoType → LowerM Fragment

/-- The outcome of a computation and the state that it leaves. -/
def LowerM.runIn {α : Type} (m : LowerM α) (env : Env) (s : FunctionState) :
    Except CompileError α × FunctionState :=
  m env s

/-! ### Looking at facts -/

namespace Env

/-- The type of a node. -/
def type? (env : Env) (s : FunctionState) (id : NodeId) : Option GoType :=
  (s.overlay.types.get? id).or (env.facts.types.get? id)

/-- The value of a constant node. -/
def constant? (env : Env) (s : FunctionState) (id : NodeId) : Option Constant :=
  (s.overlay.constants.get? id).or (env.facts.constants.get? id)

/-- What an identifier node is bound to; a synthesized one always uses. -/
def binding (env : Env) (s : FunctionState) (id : NodeId) : Binding :=
  match s.overlay.uses.get? id with
  | some obj => .use obj
  | none => env.facts.bindingOf id

/-- How a selector node was resolved. -/
def selection? (env : Env) (s : FunctionState) (id : NodeId) : Option Selection :=
  (s.overlay.selections.get? id).or (env.facts.selections.get? id)

/-- Whether a node may suspend. -/
def suspends (env : Env) (s : FunctionState) (id : NodeId) : Bool :=
  env.marks.contains id || s.overlay.suspending.contains id

/-- What is read inside of the right operand of a connective. -/
def inRightOf (env : Env) (connective : NodeId) : Env :=
  { env with inside := connective :: env.inside }

end Env

namespace Lower

variable {α : Type}

/-- Computes something from what lowering reads and the state. -/
def view (f : Env → FunctionState → α) : LowerM α := do
  return f (← read) (← get)

/-- Computes something from the configuration. -/
def config (f : Config → α) : LowerM α := do
  return f (← read).config

/-! ### Failing -/

def fail (e : LowerError) : LowerM α :=
  throw (.gap e)

/-- Fails because of a construct without a rule. -/
def unsupported (e : Expr) (construct : Construct) : LowerM α :=
  fail (.unsupported construct e.location)

/-- A value that is either there or a reason to fail. -/
def orFail (value : Option α) (e : LowerError) : LowerM α :=
  match value with
  | some a => return a
  | none => fail e

/-- The outcome of a computation without effects. -/
def ofExcept : Except LowerError α → LowerM α
  | .ok a => return a
  | .error e => fail e

/-! ### Facts about an expression -/

/-- The type of an expression, which has to be known. -/
def typeOf (e : Expr) : LowerM GoType := do
  orFail (← view fun env s => env.type? s e.id) (.missingType e.id e.location)

/-- The value of a constant expression. -/
def constantOf (e : Expr) : LowerM (Option Constant) :=
  view fun env s => env.constant? s e.id

/-- The integer view of a constant expression. -/
def intConstantOf (e : Expr) : LowerM (Option Int) := do
  return (← constantOf e).bind Constant.toInt?

def isConstant (e : Expr) : LowerM Bool := do
  return (← constantOf e).isSome

/-- The entity that an identifier is bound to, if it is bound. -/
def boundObject? (e : Expr) : LowerM (Option Object) :=
  view fun env s => (env.binding s e.id).object?

/-- The entity that an identifier is bound to, which has to be. -/
def objectOf (e : Expr) : LowerM Object := do
  orFail (← boundObject? e) (.unresolved (e.identName?.getD "<non-identifier>") e.location)

/-- How a selector was resolved; a qualified name was not. -/
def selectionOf (e : Expr) : LowerM (Option Selection) :=
  view fun env s => env.selection? s e.id

def isSuspending (e : Expr) : LowerM Bool :=
  view fun env s => env.suspends s e.id

/-- Whether an expression is the predeclared `nil`. -/
def isNil (e : Expr) : LowerM Bool := do
  if e.unparen.isIdent then return (← boundObject? e.unparen).any (·.kind == .nil)
  else return false

/-- Whether an expression may be evaluated again: it is a name or a constant. -/
def isRepeatableExpr (e : Expr) : LowerM Bool := do
  if e.unparen.isIdent then return true else isConstant e

/-! ### Changing the state -/

/-- A fresh name for code that declares it itself. -/
def newLocal (hint : String) : LowerM String :=
  modifyGet fun s => s.newLocal hint

/-- A fresh name that the function declares. -/
def newTemporary (hint : String) : LowerM String :=
  modifyGet fun s => s.newTemporary hint

def newStep : LowerM Nat :=
  modifyGet FunctionState.newStep

/-- Lowers something inside of the right operand of a connective. -/
def inRightOf (connective : NodeId) (m : LowerM α) : LowerM α :=
  withReader (fun env => env.inRightOf connective) m

/-- Leaves a pending statement; a guard is left for a connective, and an assignment to a property for
a method of a host object. -/
def leave (stmt : Statement) (connective : Option NodeId) (write : Option HostWrite) :
    LowerM Unit := do
  let inside := (← read).inside
  modify fun s => s.leave { inside, statement := stmt, connective, write }

/-- Adds a pending statement. -/
def push (stmt : Statement) : LowerM Unit :=
  leave stmt none none

/-- Assigns a text to a fresh temporary, and gives its name. -/
def keepInTemporary (hint value : String) : LowerM String := do
  let temporary ← newTemporary hint
  push (.assign temporary value)
  return temporary

/-- The number of pending statements. -/
def pendingCount : LowerM Nat := do
  return (← get).pending.length

/-- Takes out the pending statements after the first `mark` ones. -/
def splitPending (mark : Nat) : LowerM (List Statement) :=
  modifyGet fun s => s.splitAt mark

/-- Puts statements that were taken out after the pending ones. -/
def putBack (stmts : List Statement) : LowerM Unit :=
  modify fun s => s.putBack stmts

/-- The accessor box of the variable with a key. -/
def accessorBox (key : String) : LowerM String :=
  modifyGet fun s => s.accessorBox key

/-- Tells the author of the program of an error. -/
def reportError (message : String) (span : Span) : LowerM Unit :=
  modify fun s => s.reportError message span

/-- Records that an expression is lowered by its form, unless it is a name. -/
def recordLowered (e : Expr) : LowerM Unit := do
  if !e.unparen.isIdent then modify fun s => { s with lowered := e.id :: s.lowered }

/-- Where the bodies of function literals come from. -/
def bodySource : LowerM (Option BodySource) := do
  return (← read).bodies

/-- Asks for the body of a function literal. -/
def requestBody (source : BodySource) (body : Nat) (sig : Signature) : LowerM FunctionText := do
  modify fun s => { s with bodyRequests := (body, sig) :: s.bodyRequests }
  match source (← get).bodyRequests with
  | .ok function => return function
  | .error failure => throw failure

/-! ### Synthesized nodes -/

/-- A new node of a type. -/
def synthesizeNode (type : GoType) (span : Span) : LowerM Node := do
  let id ← modifyGet FunctionState.newSyntheticId
  modify fun s => s.modifyOverlay fun o => { o with types := o.types.insert id type }
  return { id, span }

/-- A new node that uses an entity. -/
def synthesizeUse (name : String) (obj : Object) (type : GoType) (span : Span) : LowerM Expr := do
  let node ← synthesizeNode type span
  modify fun s => s.modifyOverlay fun o => { o with uses := o.uses.insert node.id obj }
  return .ident node name

/-- A new node that names a generated variable. -/
def synthesizeVar (name : String) (type : GoType) (span : Span) : LowerM Expr :=
  synthesizeUse name (.var name type) type span

/-- Records how a synthesized selector is resolved. -/
def recordSelection (id : NodeId) (selection : Selection) : LowerM Unit :=
  modify fun s => s.modifyOverlay fun o => { o with selections := o.selections.insert id selection }

/-- Marks a synthesized call as suspending. -/
def markSuspending (id : NodeId) : LowerM Unit :=
  modify fun s => s.modifyOverlay fun o => { o with suspending := o.suspending.mark id }

end Lower

end GoLua
