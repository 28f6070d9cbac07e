import GoLua.Text.Delimited

/-!
# Fragments of Lua text

The outcome of lowering an expression: a text, and whether it must be put between brackets when it
becomes an operand of something else. A name, a literal, a call or an access needs none; the outcome
of an operator does.
-/

namespace GoLua

/-- Emitted text with its need of brackets. -/
structure Fragment where
  text : String
  parens : Bool := false
  deriving DecidableEq, Repr

namespace Fragment

instance : Inhabited Fragment := ⟨⟨"", false⟩⟩

/-- Text that can be an operand as it is. -/
def atom (text : String) : Fragment := ⟨text, false⟩

/-- Text with an operator at its top. -/
def operation (text : String) : Fragment := ⟨text, true⟩

/-- The text as an operand. -/
def operand (f : Fragment) : String :=
  if f.parens then Text.parenthesized f.text else f.text

/-- The text in front of a call, an index or a method name, where Lua allows only a name, an access
or something in brackets. -/
def callable (f : Fragment) : String :=
  let text := f.operand
  let starts := text.toList.head?.any fun c => c.isAlpha || c == '_' || c == '('
  if starts && !"function".toList.isPrefixOf text.toList then text else Text.parenthesized text

/-- The negation of a truth value, or the value itself. -/
def negateIf (negated : Bool) (f : Fragment) : Fragment :=
  if negated then operation ("not " ++ f.operand) else f

@[simp] theorem operand_atom (s : String) : (atom s).operand = s := rfl

@[simp] theorem operand_operation (s : String) :
    (operation s).operand = Text.parenthesized s := rfl

end Fragment

end GoLua
