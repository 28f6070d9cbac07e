import GoLua.Emit.LowerM

/-!
# Function literals

The body of a function literal consists of statements, which are lowered elsewhere; what comes back
is the text of the function with the names of the boxes that it captures. A function that captures
boxes is made by another one that takes them as parameters, so that each evaluation of the literal
keeps the boxes of its own time.
-/

namespace GoLua.Lower

/-- A function that captures names, by way of parameters of the same names. -/
def closureText (function : FunctionText) : String :=
  match (NameSet.ofList function.captured).names with
  | [] => "(" ++ function.code ++ ")"
  | names =>
    let list := Text.commaSeparated names
    "(function(" ++ list ++ ") return " ++ function.code ++ " end)(" ++ list ++ ")"

/-- A function literal. -/
def functionLiteral (e : Expr) (body : Nat) : LowerM Fragment := do
  let type ← typeOf e
  match type.signature?, ← bodySource with
  | none, _ => unsupported e (.functionLiteralOf type)
  | some _, none => unsupported e .functionLiteralWithoutBody
  | some sig, some source => return .atom (closureText (← requestBody source body sig))

end GoLua.Lower
