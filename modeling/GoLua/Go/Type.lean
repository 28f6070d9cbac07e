import GoLua.Go.Kind

/-!
# Static types

Every expression node has exactly one resolved type, known before lowering starts. A type here is
plain data: it is inspected, named and compared, never inferred.

A declared type is `named`: it carries its package-qualified name and the type it stands for, and
most questions look through any number of such layers first (`GoType.underlying`).
-/

namespace GoLua

mutual

/-- A static type of Go. -/
inductive GoType where
  | basic (kind : Kind)
  | array (elem : GoType) (len : Nat)
  | slice (elem : GoType)
  | map (key elem : GoType)
  | struct (fields : List Field)
  | pointer (elem : GoType)
  | interface (methods : List String)
  | func (signature : Signature)
  | chan (elem : GoType)
  /-- A declared type; its name is package-qualified, as in `main.Point`. -/
  | named (name : String) (definition : GoType)
  /-- The results of a call with several, or of a comma-ok form. -/
  | tuple (types : List GoType)

/-- A field of a struct. -/
structure Field where
  name : String
  type : GoType
  embedded : Bool := false
  /-- The property of a bridged host object that the field stands for. -/
  hostTag : Option String := none

/-- The signature of a function or method. -/
structure Signature where
  recv : Option GoType := none
  params : List GoType
  results : List GoType
  variadic : Bool := false

end

namespace GoType

instance : Inhabited GoType := ⟨.tuple []⟩

/-- The type of a value that is never looked at: no results at all. -/
abbrev void : GoType := .tuple []

/-- The interface without methods. -/
abbrev anyInterface : GoType := .interface []

/-- The type below every layer of declared names. -/
def underlying : GoType → GoType
  | .named _ definition => definition.underlying
  | t => t
termination_by structural t => t

/-- The kind of a type whose underlying type is basic. -/
def basicKind? (t : GoType) : Option Kind :=
  match t.underlying with
  | .basic k => some k
  | _ => none

/-- Integer types, looking through names. -/
def isInteger (t : GoType) : Bool :=
  t.basicKind?.any Kind.isInteger

/-- String types, looking through names. -/
def isString (t : GoType) : Bool :=
  t.basicKind?.any Kind.isString

/-- Unsigned integer types, looking through names. -/
def isUnsigned (t : GoType) : Bool :=
  t.basicKind?.any Kind.isUnsigned

/-- The type of the predeclared `nil` itself. -/
def isUntypedNil : GoType → Bool
  | .basic .untypedNil => true
  | _ => false

/-- Interface types, looking through names. -/
def isInterface (t : GoType) : Bool :=
  match t.underlying with
  | .interface _ => true
  | _ => false

/-- Pointer types, looking through names. -/
def isPointer (t : GoType) : Bool :=
  match t.underlying with
  | .pointer _ => true
  | _ => false

/-- Structs and arrays: values that emitted code holds by reference and copies on assignment. -/
def isAggregate (t : GoType) : Bool :=
  match t.underlying with
  | .struct _ | .array _ _ => true
  | _ => false

/-- Struct types, looking through names. -/
def isStruct (t : GoType) : Bool :=
  match t.underlying with
  | .struct _ => true
  | _ => false

/-- Array types, looking through names. -/
def isArray (t : GoType) : Bool :=
  match t.underlying with
  | .array _ _ => true
  | _ => false

/-- A declared type. -/
def isNamed : GoType → Bool
  | .named _ _ => true
  | _ => false

/-- A tuple, which is how a comma-ok form is typed. -/
def isTuple : GoType → Bool
  | .tuple _ => true
  | _ => false

/-- What a pointer points to. -/
def pointerElem? (t : GoType) : Option GoType :=
  match t.underlying with
  | .pointer elem => some elem
  | _ => none

/-- The type after at most one pointer is followed. -/
def throughPointer (t : GoType) : GoType :=
  t.pointerElem?.getD t

/-- The signature of a function-typed value. -/
def signature? (t : GoType) : Option Signature :=
  match t.underlying with
  | .func signature => some signature
  | _ => none

/-- The fields of a struct. -/
def fields? (t : GoType) : Option (List Field) :=
  match t.underlying with
  | .struct fields => some fields
  | _ => none

/-- The length of an array. -/
def arrayLen? (t : GoType) : Option Nat :=
  match t.underlying with
  | .array _ len => some len
  | _ => none

/-- A slice whose elements are runes. -/
def isRuneSlice (t : GoType) : Bool :=
  match t.underlying with
  | .slice elem => elem.basicKind? == some .int32
  | _ => false

/-- The run-time library's tag of a type. -/
def tag (t : GoType) : String :=
  match t.underlying with
  | .basic k => k.tag
  | .array _ _ => "Array"
  | .slice _ => "Slice"
  | .map _ _ => "Map"
  | .struct _ => "Struct"
  | .pointer _ => "Ptr"
  | .interface _ => "Interface"
  | .func _ => "Func"
  | .chan _ => "Chan"
  | .tuple _ => "Tuple"
  | .named _ _ => "Named"

/-! ### What lies below the names -/

@[simp] theorem underlying_named (name : String) (t : GoType) :
    (GoType.named name t).underlying = t.underlying := rfl

/-- An underlying type is never declared. -/
theorem underlying_ne_named (t : GoType) (name : String) (d : GoType) :
    t.underlying ≠ .named name d := by
  fun_induction underlying t with
  | case1 _ _ ih => exact ih
  | case2 t h => exact fun ht => h name d ht

/-- Looking through the names twice finds nothing more. -/
@[simp] theorem underlying_underlying (t : GoType) : t.underlying.underlying = t.underlying := by
  fun_induction underlying t with
  | case1 _ _ ih => exact ih
  | case2 t h => cases t <;> simp_all [underlying]

/-- Looking through names never enlarges a type. -/
theorem sizeOf_underlying_le (t : GoType) : sizeOf t.underlying ≤ sizeOf t := by
  fun_induction underlying t with
  | case1 name d ih => simp only [named.sizeOf_spec]; omega
  | case2 => exact Nat.le_refl _

theorem underlying_of_basicKind? {t : GoType} {k : Kind} (h : t.basicKind? = some k) :
    t.underlying = .basic k := by
  unfold basicKind? at h
  split at h
  · next k' hk' => rw [hk', Option.some.inj h]
  · cases h

theorem underlying_of_pointerElem? {t elem : GoType} (h : t.pointerElem? = some elem) :
    t.underlying = .pointer elem := by
  unfold pointerElem? at h
  split at h
  · next e he => rw [he, Option.some.inj h]
  · cases h

/-- What a pointer points to is smaller than the pointer. -/
theorem sizeOf_lt_of_pointerElem? {t elem : GoType} (h : t.pointerElem? = some elem) :
    sizeOf elem < sizeOf t := by
  have hle := sizeOf_underlying_le t
  rw [underlying_of_pointerElem? h, pointer.sizeOf_spec] at hle
  omega

end GoType

namespace Signature

/-- The signature as the value of a function has it: the receiver is bound already. -/
def unbound (s : Signature) : Signature :=
  { s with recv := none }

end Signature

end GoLua
