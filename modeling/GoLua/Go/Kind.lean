/-!
# Basic kinds

The predeclared types of Go and the kinds of its untyped constants. A kind is the innermost datum
of a type: how wide an integer is, whether an ordering is signed, which zero value a slot takes,
are all read off it.

Three spellings of a kind are kept apart, because each reader knows a different one: `spelling` is
how Go writes it, `label` how a data file and a type's constructor form write it, and `tag` how the
run-time library names it. An untyped constant kind has the tag of the kind it defaults to.
-/

namespace GoLua

/-- A predeclared type, or the kind of an untyped constant. -/
inductive Kind where
  | bool
  | int
  | int8
  | int16
  | int32
  | int64
  | uint
  | uint8
  | uint16
  | uint32
  | uint64
  | uintptr
  | float32
  | float64
  | complex64
  | complex128
  | string
  | unsafePointer
  | untypedBool
  | untypedInt
  | untypedRune
  | untypedFloat
  | untypedComplex
  | untypedString
  | untypedNil
  deriving DecidableEq, Repr

namespace Kind

/-! ### Classes of kinds -/

/-- Truth values, typed or untyped. -/
def isTruth : Kind → Bool
  | .bool | .untypedBool => true
  | _ => false

/-- Integers, typed or untyped; an untyped rune is one. -/
def isInteger : Kind → Bool
  | .int | .int8 | .int16 | .int32 | .int64
  | .uint | .uint8 | .uint16 | .uint32 | .uint64 | .uintptr
  | .untypedInt | .untypedRune => true
  | _ => false

/-- Integers without a sign. -/
def isUnsigned : Kind → Bool
  | .uint | .uint8 | .uint16 | .uint32 | .uint64 | .uintptr => true
  | _ => false

/-- Floating-point numbers, typed or untyped. -/
def isFloat : Kind → Bool
  | .float32 | .float64 | .untypedFloat => true
  | _ => false

/-- Complex numbers, typed or untyped. -/
def isComplex : Kind → Bool
  | .complex64 | .complex128 | .untypedComplex => true
  | _ => false

/-- Strings, typed or untyped. -/
def isString : Kind → Bool
  | .string | .untypedString => true
  | _ => false

/-- Any kind of number. -/
def isNumeric (k : Kind) : Bool :=
  k.isInteger || k.isFloat || k.isComplex

/-- The kinds that only constants have, and `nil`. -/
def isUntyped : Kind → Bool
  | .untypedBool | .untypedInt | .untypedRune | .untypedFloat
  | .untypedComplex | .untypedString | .untypedNil => true
  | _ => false

/-- Width in bits of a sized integer kind. The machine word of emitted code has 32 bits, so `uint`
and `uintptr` do; `int` fills the 64-bit cell of a Lua integer. -/
def bitWidth? : Kind → Option Nat
  | .int8 | .uint8 => some 8
  | .int16 | .uint16 => some 16
  | .int32 | .uint32 | .uint | .uintptr | .untypedRune => some 32
  | .int | .int64 | .uint64 => some 64
  | _ => none

/-! ### Spellings -/

/-- How Go writes the kind. -/
def spelling : Kind → String
  | .bool => "bool"
  | .int => "int"
  | .int8 => "int8"
  | .int16 => "int16"
  | .int32 => "int32"
  | .int64 => "int64"
  | .uint => "uint"
  | .uint8 => "uint8"
  | .uint16 => "uint16"
  | .uint32 => "uint32"
  | .uint64 => "uint64"
  | .uintptr => "uintptr"
  | .float32 => "float32"
  | .float64 => "float64"
  | .complex64 => "complex64"
  | .complex128 => "complex128"
  | .string => "string"
  | .unsafePointer => "unsafe.Pointer"
  | .untypedBool => "untyped bool"
  | .untypedInt => "untyped int"
  | .untypedRune => "untyped rune"
  | .untypedFloat => "untyped float"
  | .untypedComplex => "untyped complex"
  | .untypedString => "untyped string"
  | .untypedNil => "untyped nil"

/-- How a data file, and the constructor form of a type, write the kind. -/
def label : Kind → String
  | .bool => "Bool"
  | .int => "Int"
  | .int8 => "Int8"
  | .int16 => "Int16"
  | .int32 => "Int32"
  | .int64 => "Int64"
  | .uint => "Uint"
  | .uint8 => "Uint8"
  | .uint16 => "Uint16"
  | .uint32 => "Uint32"
  | .uint64 => "Uint64"
  | .uintptr => "Uintptr"
  | .float32 => "Float32"
  | .float64 => "Float64"
  | .complex64 => "Complex64"
  | .complex128 => "Complex128"
  | .string => "String"
  | .unsafePointer => "UnsafePointer"
  | .untypedBool => "UntypedBool"
  | .untypedInt => "UntypedInt"
  | .untypedRune => "UntypedRune"
  | .untypedFloat => "UntypedFloat"
  | .untypedComplex => "UntypedComplex"
  | .untypedString => "UntypedString"
  | .untypedNil => "UntypedNil"

/-- The run-time library's tag, e.g. for the element kind of an array. -/
def tag : Kind → String
  | .untypedBool => "Bool"
  | .untypedInt => "Int"
  | .untypedRune => "Int32"
  | .untypedFloat => "Float64"
  | .untypedComplex => "Complex128"
  | .untypedString => "String"
  | .untypedNil => "Nil"
  | k => k.label

/-- Every kind, once. -/
def all : List Kind :=
  [.bool, .int, .int8, .int16, .int32, .int64, .uint, .uint8, .uint16, .uint32, .uint64, .uintptr,
    .float32, .float64, .complex64, .complex128, .string, .unsafePointer, .untypedBool,
    .untypedInt, .untypedRune, .untypedFloat, .untypedComplex, .untypedString, .untypedNil]

/-- The kind that a data file names by `s`. -/
def ofLabel? (s : String) : Option Kind :=
  all.find? fun k => k.label == s

end Kind

end GoLua
