import GoLua.Go.Constant
import GoLua.Go.Object
import GoLua.Go.Operator
import GoLua.Go.Type.Text
import GoLua.Source.Diagnostic

/-!
# Failures

Why a compilation stops. The program was checked before it came here, so an expression that cannot
be lowered is a gap between what the analysis lets through and what lowering knows, and the failure
says which gap: a `LowerError` names the construct, and a `Construct` is one of a fixed list of
things that lowering has no rule for. The wording of each stands in one place, beside its cause.

What the author of the program should be told is no failure but a diagnostic.
-/

namespace GoLua

/-! ### Constructs without a rule -/

/-- Something that lowering has no rule for. -/
inductive Construct where
  | literalWithoutValue (token : String)
  | typeAsValue
  | blankAsValue
  | objectAsValue (kind : ObjectKind) (name : String)
  | nilOf (type : GoType)
  | zeroOf (type : GoType)
  | constantOfType (type : GoType)
  | constantOfKind (kind : Kind)
  | constantMisfit (value : Constant) (type : GoType)
  | functionLiteralOf (type : GoType)
  | functionLiteralWithoutBody
  | indexInto (type : GoType)
  | sliceOf (type : GoType)
  | unaryOn (op : UnaryOp) (type : GoType)
  | addressOfMethod
  | addressOf (noun : String)
  | receiveFrom (type : GoType)
  | nilComparison (type : GoType)
  | operatorOn (op : BinaryOp) (type : GoType)
  | operatorOnStrings (op : BinaryOp)
  | operatorOnComplex (op : BinaryOp)
  | operatorOnFloats (op : BinaryOp)
  | operatorOnIntegers (op : BinaryOp)
  | conversionWithoutOperand
  | intrinsicWithoutOperand
  | callOf (type : GoType)
  | variadicParameter (type : Option GoType)
  | fieldSelectionOn (type : GoType)
  | fieldIndexBeyond (index : Nat) (type : GoType)
  | mapElementWithoutKey
  | compositeOf (type : GoType)
  | nonConstantIndex
  | negativeIndex (index : Int)
  | arrayTooLong (found len : Nat)
  | builtinArguments (name : String) (found : Nat)
  | newReturning (type : GoType)
  | makeOf (type : GoType)
  | lenOf (type : GoType)
  | capOf (type : GoType)
  | deleteFrom (type : GoType)
  | appendTo (type : GoType)
  | hostMethod (name : String)
  | hostMethodArguments (found : Nat)
  /-- A construct known only by its description. -/
  | described (text : String)

/-- A construct in the words of a message. -/
def Construct.text : Construct → String
  | .literalWithoutValue token => "literal '" ++ token ++ "' without a constant value"
  | .typeAsValue => "type expression used as a value"
  | .blankAsValue => "blank identifier used as a value"
  | .objectAsValue kind name => kind.label ++ " '" ++ name ++ "' used as a value"
  | .nilOf type => "nil of type " ++ type.text
  | .zeroOf type => "zero value of " ++ type.text
  | .constantOfType type => "constant of non-basic type " ++ type.text
  | .constantOfKind kind => "constant of kind " ++ kind.spelling
  | .constantMisfit value type => "constant " ++ value.form ++ " does not fit type " ++ type.text
  | .functionLiteralOf type => "function literal of type " ++ type.text
  | .functionLiteralWithoutBody => "function literal without a body driver"
  | .indexInto type => "index into " ++ type.text
  | .sliceOf type => "slice of " ++ type.text
  | .unaryOn op type => "unary " ++ op.spelling ++ " on " ++ type.text
  | .addressOfMethod => "address of a method value"
  | .addressOf noun => "address of " ++ noun
  | .receiveFrom type => "receive from " ++ type.text
  | .nilComparison type => "comparison of " ++ type.text ++ " with nil"
  | .operatorOn op type => "operator " ++ op.spelling ++ " on " ++ type.text
  | .operatorOnStrings op => "operator " ++ op.spelling ++ " on strings"
  | .operatorOnComplex op => "operator " ++ op.spelling ++ " on complex values"
  | .operatorOnFloats op => "operator " ++ op.spelling ++ " on floats"
  | .operatorOnIntegers op => "operator " ++ op.spelling ++ " on integers"
  | .conversionWithoutOperand => "conversion without an operand"
  | .intrinsicWithoutOperand => "intrinsic call without an operand"
  | .callOf type => "call of non-function type " ++ type.text
  | .variadicParameter type => "variadic parameter " ++ formOption (type.map GoType.form)
  | .fieldSelectionOn type => "field selection on " ++ type.text
  | .fieldIndexBeyond index type =>
    "field index " ++ toString index ++ " out of range for " ++ type.text
  | .mapElementWithoutKey => "map literal element without a key"
  | .compositeOf type => "composite literal of " ++ type.text
  | .nonConstantIndex => "non-constant index in composite literal"
  | .negativeIndex index => "negative index " ++ toString index ++ " in composite literal"
  | .arrayTooLong found len =>
    "array literal with " ++ toString found ++ " elements for length " ++ toString len
  | .builtinArguments name found => name ++ " with " ++ toString found ++ " arguments"
  | .newReturning type => "new returning " ++ type.text
  | .makeOf type => "make of " ++ type.text
  | .lenOf type => "len of " ++ type.text
  | .capOf type => "cap of " ++ type.text
  | .deleteFrom type => "delete from " ++ type.text
  | .appendTo type => "append to " ++ type.text
  | .hostMethod name => "host object method '" ++ name ++ "'"
  | .hostMethodArguments found => "host method call with " ++ toString found ++ " arguments"
  | .described text => text

/-! ### Faults of a template -/

/-- What a placeholder needs from its operand. -/
inductive OperandNeed where
  | text
  | integer
  | operator
  | expression
  deriving DecidableEq, Repr

/-- What is wrong with a template. -/
inductive TemplateFault where
  /-- The number of an operand does not fit a machine word. -/
  | hugeIndex
  | zeroIndex
  | missingTag
  | unknownTag (tag : Char)
  /-- The place of the operand, counted from zero, and how many there are. -/
  | operandMissing (index count : Nat)
  | operandMismatch (tag : Char) (need : OperandNeed)
  /-- A fault known only by its description. -/
  | described (text : String)
  deriving DecidableEq, Repr

/-- What is needed, in the words of a message. -/
def OperandNeed.words : OperandNeed → String
  | .text => "a text operand"
  | .integer => "an integer operand"
  | .operator => "an operator operand"
  | .expression => "an expression operand"

/-- A fault in the words of a message. -/
def TemplateFault.text : TemplateFault → String
  | .hugeIndex => "bad operand index"
  | .zeroIndex => "operand indices are 1-based"
  | .missingTag => "placeholder without a tag"
  | .unknownTag tag => "unknown tag '" ++ tag.toString ++ "'"
  | .operandMissing index count =>
    "operand " ++ toString (index + 1) ++ " out of range (" ++ toString count ++ " given)"
  | .operandMismatch tag need => "%" ++ tag.toString ++ " needs " ++ need.words
  | .described text => text

/-! ### Failures of lowering -/

/-- A gap between what the analysis lets through and what lowering knows. -/
inductive LowerError where
  | unsupported (construct : Construct) (location : Location)
  | unresolved (name : String) (location : Location)
  | missingType (node : Nat) (location : Location)
  | malformedTemplate (pattern : String) (fault : TemplateFault)
  | conversion (source target : String) (location : Location)
  | unknownBuiltin (name : String) (location : Location)
  | fieldCount (typeName : String) (expected found : Nat) (location : Location)
  | unknownField (typeName field : String) (location : Location)
  /-- More lowerings inside one another than the size of the tree accounts for. -/
  | nesting (location : Location)

namespace LowerError

/-- Where the failure arose; a template was not written anywhere. -/
def location : LowerError → Location
  | .unsupported _ l | .unresolved _ l | .missingType _ l | .conversion _ _ l
  | .unknownBuiltin _ l | .fieldCount _ _ _ l | .unknownField _ _ l | .nesting l => l
  | .malformedTemplate _ _ => .unknown

def text : LowerError → String
  | .unsupported construct l => "Unsupported construct '" ++ construct.text ++ "' at " ++ l.text
  | .unresolved name l => "Unresolved identifier '" ++ name ++ "' at " ++ l.text
  | .missingType node l => "No type recorded for node " ++ toString node ++ " at " ++ l.text
  | .malformedTemplate pattern fault => "Malformed template '" ++ pattern ++ "': " ++ fault.text
  | .conversion source target l =>
    "Conversion from " ++ source ++ " to " ++ target ++ " not supported at " ++ l.text
  | .unknownBuiltin name l => "Unknown builtin '" ++ name ++ "' at " ++ l.text
  | .fieldCount typeName expected found l =>
    "Struct " ++ typeName ++ " has " ++ toString expected ++ " fields but literal has " ++
      toString found ++ " at " ++ l.text
  | .unknownField typeName field l =>
    "Struct " ++ typeName ++ " has no field '" ++ field ++ "' at " ++ l.text
  | .nesting l => "Expression nested too deeply at " ++ l.text

end LowerError

/-! ### Failures of a compilation -/

/-- Why a compilation stopped. -/
inductive CompileError where
  /-- Lowering met something that it has no rule for. -/
  | gap (cause : LowerError)
  | internal (message : String) (location : Location)
  | semantic (message : String) (span : Span)
  | config (message : String)

namespace CompileError

/-- A fault of the compiler rather than of its input. -/
def isInternal : CompileError → Bool
  | .gap _ | .internal _ _ => true
  | _ => false

def text : CompileError → String
  | .gap cause => "Internal compiler error at " ++ cause.location.text ++ ": " ++ cause.text
  | .internal message l => "Internal compiler error at " ++ l.text ++ ": " ++ message
  | .semantic message span => "Semantic error at " ++ span.text ++ ": " ++ message
  | .config message => "Configuration error: " ++ message

end CompileError

/-- The first error of a reporter as a failure, with the counts of all. -/
def Reporter.failure? (r : Reporter) : Option CompileError :=
  r.firstError?.map fun d => .semantic (d.message ++ " (" ++ r.summary ++ ")") d.span

end GoLua
