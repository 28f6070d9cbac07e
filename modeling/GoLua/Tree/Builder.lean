import GoLua.Facts.Facts
import GoLua.Facts.Marks
import GoLua.Go.Expr

/-!
# Building trees with their facts

Where there is no parser and no type checker, a tree is built by hand, and what an analysis would
find out about each node is recorded while the node is made. The builder is told the type of every
node and takes the rest from the entities and constants that it is given.

Nodes are numbered in the order in which they are made. A node is said to be written on the line
after its number, so that a message leads back to the node.

The main statements say what making a node leaves alone: no other node changes its type
(`type?_node`), and the number of the new node was not in use (`id_node`).
-/

namespace GoLua

/-- A tree builder: the next number, and the facts recorded so far. -/
structure TreeBuilder where
  nextId : NodeId := 0
  facts : Facts := {}
  /-- The nodes that may suspend. -/
  marks : Marks := {}

/-- Computations that build trees. -/
abbrev Build := StateM TreeBuilder

namespace TreeBuilder

instance : Inhabited TreeBuilder := ⟨{}⟩

/-- The next number. -/
def newId (b : TreeBuilder) : NodeId × TreeBuilder :=
  (b.nextId, { b with nextId := b.nextId + 1 })

/-- Where the node with a number is said to be written. -/
def spanOf (id : NodeId) : Span :=
  .point ⟨"main.go", id + 1, 1⟩

/-- A new node of a type. -/
def node (b : TreeBuilder) (type : GoType) : Node × TreeBuilder :=
  let (id, b) := b.newId
  ({ id, span := spanOf id },
    { b with facts := { b.facts with types := b.facts.types.insert id type } })

/-- The recorded type of an expression; one without any is taken to have no value. -/
def typeOf (b : TreeBuilder) (e : Expr) : GoType :=
  (b.facts.types.get? e.id).getD .void

/-- Marks an expression as one that may suspend. -/
def mark (b : TreeBuilder) (e : Expr) : TreeBuilder :=
  { b with marks := b.marks.mark e.id }

/-- A new node has the next number. -/
theorem id_node (b : TreeBuilder) (type : GoType) : (b.node type).1.id = b.nextId := rfl

/-- A new node gets its type, and every other node keeps what it had. -/
theorem type?_node (b : TreeBuilder) (type : GoType) (id : NodeId) :
    (b.node type).2.facts.types.get? id =
      if b.nextId = id then some type else b.facts.types.get? id :=
  NodeTable.get?_insert _ _ _ _

end TreeBuilder

namespace Build

/-! ### Nodes and facts -/

/-- A new node of a type. -/
def node (type : GoType) : Build Node :=
  modifyGet fun b => b.node type

/-- The recorded type of an expression. -/
def typeOf (e : Expr) : Build GoType := do
  return (← get).typeOf e

/-- Changes the recorded facts. -/
def record (f : Facts → Facts) : Build Unit :=
  modify fun b => { b with facts := f b.facts }

/-- Records that an identifier uses an entity. -/
def recordUse (n : Node) (obj : Object) : Build Unit :=
  record fun f => { f with uses := f.uses.insert n.id obj }

/-- Records how a selector is resolved. -/
def recordSelection (n : Node) (selection : Selection) : Build Unit :=
  record fun f => { f with selections := f.selections.insert n.id selection }

/-! ### Names and constants -/

/-- An identifier that is bound to nothing. -/
def name (text : String) (type : GoType) : Build Expr := do
  return .ident (← node type) text

/-- An identifier that uses an entity. -/
def ident (obj : Object) : Build Expr := do
  let n ← node obj.type
  recordUse n obj
  return .ident n obj.name

/-- A local variable. -/
def var (name : String) (type : GoType) : Build Expr :=
  ident (.var name type)

/-- A function. -/
def func (name : String) (sig : Signature) : Build Expr :=
  ident (.func name (.func sig))

/-- A predeclared function, with the signature that it has in a call. -/
def builtin (name : String) (sig : Signature) : Build Expr :=
  ident (.builtin name (.func sig))

/-- The predeclared `nil` where a type is expected. -/
def nil (type : GoType) : Build Expr := do
  let n ← node type
  recordUse n .nil
  return .ident n "nil"

/-- A literal token without a value. -/
def token (text : String) (type : GoType) : Build Expr := do
  return .basicLit (← node type) text

/-- A literal with its value. -/
def constant (value : Constant) (type : GoType) : Build Expr := do
  let n ← node type
  record fun f => { f with constants := f.constants.insert n.id value }
  return .basicLit n value.form

/-- An integer of a kind. -/
def int (value : Int) (kind : Kind) : Build Expr :=
  constant (.int value) (.basic kind)

/-- A string. -/
def string (value : String) : Build Expr :=
  constant (.string value) (.basic .string)

/-- A truth value. -/
def bool (value : Bool) : Build Expr :=
  constant (.bool value) (.basic .bool)

/-! ### Selectors -/

/-- A selector and its name, both of a type. -/
def select (base : Expr) (text : String) (type : GoType) : Build (Node × Expr) := do
  let sel ← name text type
  let n ← node type
  return (n, .selector n base sel)

/-- The field of a struct at a place, or one without a value where there is none. -/
def fieldAt (type : GoType) (place : Nat) : Field :=
  (type.throughPointer.fields?.bind fun fields => fields[place]?).getD
    { name := "field" ++ toString place, type := .void }

/-- The field at a place of a struct, or of the struct that a pointer points to. -/
def field (base : Expr) (place : Nat) : Build Expr := do
  let recv ← typeOf base
  let field := fieldAt recv place
  let (n, e) ← select base field.name field.type
  recordSelection n
    { kind := .fieldVal, recv, index := [place], obj := .var field.name field.type,
      type := field.type }
  return e

/-- A method, which embedded fields may lead to. As a value it has its receiver bound. -/
def method (base : Expr) (obj : Object) (path : List Nat) (kind : SelectionKind) : Build Expr := do
  let recv ← typeOf base
  let type := match obj.type.signature? with
    | some sig => .func sig.unbound
    | none => obj.type
  let (n, e) ← select base obj.name type
  recordSelection n { kind, recv, index := path, obj, type }
  return e

/-- An entity of another package. -/
def qualified (package : String) (obj : Object) : Build Expr := do
  let pkg ← name (packageName package) .void
  let sel ← ident obj
  return .selector (← node obj.type) pkg sel

/-! ### Other forms -/

/-- An expression in parentheses, of the type that it has without them. -/
def paren (inner : Expr) : Build Expr := do
  return .paren (← node (← typeOf inner)) inner

/-- An expression that denotes a type. -/
def typeExpr (type : GoType) : Build Expr := do
  return .typeExpr (← node type)

/-- The name of a field in a literal. -/
def fieldKey (text : String) : Build Expr :=
  name text .void

/-- A function literal with the handle of its body. -/
def funcLit (body : Nat) (sig : Signature) : Build Expr := do
  return .funcLit (← node (.func sig)) body

end Build

end GoLua
