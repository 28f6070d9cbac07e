import GoLua.Go.Type.Equality
import GoLua.Text.Uppercase

/-!
# Declared entities

What an identifier denotes, and what a selector selects. An object without a package is either
predeclared or local to a function. An *escaping* variable is captured by reference, and emitted
code keeps it in a box of one element.
-/

namespace GoLua

/-- The name of a package: the last segment of its path. -/
def packageName (path : String) : String :=
  String.ofList (path.toList.reverse.takeWhile (· ≠ '/')).reverse

/-- What kind of entity a name denotes. -/
inductive ObjectKind where
  | var
  | const
  | func
  | typeName
  | builtin
  | nil
  | pkgName
  deriving DecidableEq, Repr

namespace ObjectKind

/-- How a message and a data file name the kind of an entity. -/
def label : ObjectKind → String
  | .var => "Var"
  | .const => "Const"
  | .func => "Func"
  | .typeName => "TypeName"
  | .builtin => "Builtin"
  | .nil => "Nil"
  | .pkgName => "PkgName"

/-- Every kind of entity, once. -/
def all : List ObjectKind :=
  [.var, .const, .func, .typeName, .builtin, .nil, .pkgName]

/-- The kind of entity that a data file names by `s`. -/
def ofLabel? (s : String) : Option ObjectKind :=
  all.find? fun k => k.label == s

end ObjectKind

/-- A declared entity. -/
structure Object where
  name : String
  kind : ObjectKind
  type : GoType
  /-- The declaring package; none for predeclared and local entities. -/
  package : Option String := none
  /-- Whether a variable is captured by reference. -/
  escaping : Bool := false
  deriving DecidableEq

namespace Object

/-- A local variable. -/
def var (name : String) (type : GoType) : Object :=
  { name, kind := .var, type }

/-- A function. -/
def func (name : String) (type : GoType) : Object :=
  { name, kind := .func, type }

/-- A predeclared function, whose type is given by each call. -/
def builtin (name : String) (type : GoType) : Object :=
  { name, kind := .builtin, type }

/-- The predeclared `nil`. -/
def nil : Object :=
  { name := "nil", kind := .nil, type := .basic .untypedNil }

/-- Whether other packages see the entity: its name starts with a capital. -/
def isExported (obj : Object) : Bool :=
  obj.name.toList.head?.any Text.isUppercase

/-- Whether a method is declared on a pointer. -/
def hasPointerReceiver (obj : Object) : Bool :=
  (obj.type.signature?.bind Signature.recv).any GoType.isPointer

end Object

/-- What a selector selects. -/
inductive SelectionKind where
  | fieldVal
  | methodVal
  | methodExpr
  deriving DecidableEq, Repr

namespace SelectionKind

/-- How a data file names the kind of a selection. -/
def label : SelectionKind → String
  | .fieldVal => "FieldVal"
  | .methodVal => "MethodVal"
  | .methodExpr => "MethodExpr"

/-- Every kind of selection, once. -/
def all : List SelectionKind :=
  [.fieldVal, .methodVal, .methodExpr]

/-- The kind of selection that a data file names by `s`. -/
def ofLabel? (s : String) : Option SelectionKind :=
  all.find? fun k => k.label == s

end SelectionKind

/-- How a selector was resolved. -/
structure Selection where
  kind : SelectionKind
  /-- The type of what stands before the dot. -/
  recv : GoType
  /-- The fields to follow from `recv` to the selected entity, by their places. -/
  index : List Nat
  /-- The selected field or method. -/
  obj : Object
  /-- The type of the whole selector. -/
  type : GoType
  deriving DecidableEq

end GoLua
