/-!
# Names in Lua

A Lua name is made of ASCII letters, digits and underscores, does not start with a digit, and is not
a reserved word. Names from the program are Go names: one that collides with a reserved word gets an
underscore, and a field whose name Lua cannot spell is reached through a bracketed string instead.
-/

namespace GoLua.Lua

/-- The reserved words of Lua 5.3. -/
def keywords : List String :=
  ["and", "break", "do", "else", "elseif", "end", "false", "for", "function", "goto", "if",
    "in", "local", "nil", "not", "or", "repeat", "return", "then", "true", "until", "while"]

def isKeyword (name : String) : Bool :=
  keywords.contains name

/-- A name that is no reserved word: a reserved word gets an underscore. -/
def safeName (name : String) : String :=
  if isKeyword name then name ++ "_" else name

/-- ASCII letters and the underscore. -/
def isNameStart (c : Char) : Bool :=
  c.isAlpha || c == '_'

/-- ASCII letters, digits and the underscore. -/
def isNameChar (c : Char) : Bool :=
  c.isAlphanum || c == '_'

/-- Whether a text is a Lua name. -/
def isName (text : String) : Bool :=
  match text.toList with
  | [] => false
  | c :: cs => isNameStart c && cs.all isNameChar && !isKeyword text

end GoLua.Lua
