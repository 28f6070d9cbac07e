import GoLua.Go.Type
import GoLua.Text.Delimited
import GoLua.Text.Escaped

/-!
# The constructor form of a type

A type written out by its constructors, with every field named and every text escaped. Unlike
`GoType.text` it hides nothing, so it is what a message shows when a type should never have reached
the place where it did.
-/

namespace GoLua

open Text

/-- A truth value as a word. -/
def truthWord (b : Bool) : String :=
  if b then "true" else "false"

/-- A named part of a constructor form. -/
def formPart (name value : String) : String :=
  name ++ ": " ++ value

/-- A constructor with named parts. -/
def formRecord (constructor : String) (parts : List String) : String :=
  constructor ++ " " ++ braced (" " ++ commaSeparated parts ++ " ")

/-- A list in a constructor form. -/
def formList (items : List String) : String :=
  "[" ++ commaSeparated items ++ "]"

/-- A value that may be absent. -/
def formOption : Option String → String
  | none => "None"
  | some text => "Some" ++ parenthesized text

mutual

/-- The constructor form of a type. -/
def GoType.form : GoType → String
  | .basic k => "Basic" ++ parenthesized k.label
  | .array elem len => formRecord "Array" [formPart "elem" elem.form, formPart "len" (toString len)]
  | .slice elem => formRecord "Slice" [formPart "elem" elem.form]
  | .map key elem => formRecord "Map" [formPart "key" key.form, formPart "elem" elem.form]
  | .struct fields => formRecord "Struct" [formPart "fields" (formList (fieldForms fields))]
  | .pointer elem => formRecord "Pointer" [formPart "elem" elem.form]
  | .interface methods =>
    formRecord "Interface" [formPart "methods" (formList (methods.map escaped))]
  | .func signature => "Signature" ++ parenthesized signature.form
  | .chan elem => formRecord "Chan" [formPart "elem" elem.form]
  | .named name definition =>
    formRecord "Named" [formPart "name" (escaped name), formPart "underlying" definition.form]
  | .tuple types => "Tuple" ++ parenthesized (formList (typeForms types))
termination_by structural t => t

/-- The constructor forms of several types. -/
def typeForms : List GoType → List String
  | [] => []
  | t :: ts => t.form :: typeForms ts
termination_by structural ts => ts

/-- The constructor form of a receiver that may be absent. -/
def receiverForm : Option GoType → Option String
  | none => none
  | some t => some t.form
termination_by structural t => t

/-- The constructor forms of several fields. -/
def fieldForms : List Field → List String
  | [] => []
  | f :: fs => f.form :: fieldForms fs
termination_by structural fs => fs

/-- The constructor form of a field. -/
def Field.form : Field → String
  | ⟨name, type, embedded, hostTag⟩ =>
    formRecord "StructField"
      [formPart "name" (escaped name), formPart "field_type" type.form,
        formPart "embedded" (truthWord embedded),
        formPart "host_tag" (formOption (hostTag.map escaped))]
termination_by structural f => f

/-- The constructor form of a signature. -/
def Signature.form : Signature → String
  | ⟨recv, params, results, variadic⟩ =>
    formRecord "Signature"
      [formPart "recv" (formOption (receiverForm recv)),
        formPart "params" (formList (typeForms params)),
        formPart "results" (formList (typeForms results)),
        formPart "variadic" (truthWord variadic)]
termination_by structural s => s

end

end GoLua
