/-!
# Pending statements

What has to run before the statement that an expression stands in. A suspending call leaves the
expression and becomes an assignment at which the function can be resumed; the right operand of a
connective, when it suspends, becomes the branch of a guard, so that it still runs only if the left
operand does not decide.
-/

namespace GoLua

/-- A statement to be emitted before the enclosing one. -/
inductive Statement where
  | assign (target value : String)
  /-- A call that may suspend, resumed at `step`; it has no target if it has no results. -/
  | callAssign (target : Option String) (call : String) (step : Nat)
  /-- `result` is the condition where that decides, and else `value`, computed after `body`. -/
  | guard (result condition : String) (isAnd : Bool) (body : List Statement) (value : String)

namespace Statement

mutual

/-- The text of a statement. -/
def text : Statement → String
  | .assign target value => target ++ " = " ++ value
  | .callAssign (some target) call step =>
    target ++ " = " ++ call ++ " --[[resume:" ++ toString step ++ "]]"
  | .callAssign none call step => call ++ " --[[resume:" ++ toString step ++ "]]"
  | .guard result condition isAnd body value =>
    (if isAnd then "if not (" ++ condition ++ ") then " ++ result ++ " = false else "
      else "if " ++ condition ++ " then " ++ result ++ " = true else ") ++
      bodyText body ++ result ++ " = " ++ value ++ " end"
termination_by structural s => s

/-- The text of a guard's branch, each statement with its separator. -/
def bodyText : List Statement → String
  | [] => ""
  | s :: ss => s.text ++ "; " ++ bodyText ss
termination_by structural ss => ss

end

end Statement

end GoLua
