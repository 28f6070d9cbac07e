import GoLua.Lower.Expr
import GoLua.Proofs.Run

/-!
# Runs of expressions

Whatever the form of an expression is, its type is looked up first, and then its value. Without a type
nothing is lowered, with a value the form makes no difference, and otherwise the node is recorded and
lowered by its form.
-/

namespace GoLua.Lower

variable {env : Env} {s : FunctionState} {e : Expr} {type : GoType} {c : Constant}

theorem runIn_expression_untyped (h : env.type? s e.id = none) (self : Lowering)
    (desired : Option GoType) :
    (expression self e desired).runIn env s =
      (.error (.gap (.missingType e.id e.location)), s) := by
  refine LowerM.runIn_bind_error ?_ _
  rw [runIn_typeOf, h]

/-- A constant is lowered to its literal. -/
theorem runIn_expression_constant (htype : env.type? s e.id = some type)
    (hconstant : env.constant? s e.id = some c) (self : Lowering) (desired : Option GoType) :
    (expression self e desired).runIn env s =
      (ofExcept (c.lower type desired e.location)).runIn env s := by
  have hconstantOf : (constantOf e).runIn env s = (.ok (some c), s) := by
    rw [runIn_constantOf, hconstant]
  rw [expression, LowerM.runIn_bind_ok (runIn_typeOf_of_type? htype),
    LowerM.runIn_bind_ok hconstantOf]

/-- Anything else is recorded and lowered by its form. -/
theorem runIn_expression_form (htype : env.type? s e.id = some type)
    (hconstant : env.constant? s e.id = none) (self : Lowering) (desired : Option GoType) :
    (expression self e desired).runIn env s =
      (byForm self e desired).runIn env
        (if e.unparen.isIdent then s else { s with lowered := e.id :: s.lowered }) := by
  have hconstantOf : (constantOf e).runIn env s = (.ok none, s) := by
    rw [runIn_constantOf, hconstant]
  rw [expression, LowerM.runIn_bind_ok (runIn_typeOf_of_type? htype),
    LowerM.runIn_bind_ok hconstantOf]
  exact LowerM.runIn_bind_ok (runIn_recordLowered env s e) _

/-! ### Names -/

/-- A variable is written by its emitted name, or by what the host bridge calls it. -/
theorem runIn_identifier_var {name : String} {obj : Object}
    (hbinding : (env.binding s e.id).object? = some obj)
    (hkind : obj.kind = .var) (hname : name ≠ "_") :
    (identifier e name).runIn env s =
      (.ok (.atom ((hostEntity? env.config obj).getD (objectName env.config obj))), s) := by
  rw [identifier, if_neg hname, LowerM.runIn_bind_ok (runIn_objectOf_of_binding hbinding),
    LowerM.runIn_bind_ok (runIn_config ..)]
  cases hostEntity? env.config obj with
  | some text => rfl
  | none =>
    dsimp only
    rw [hkind]
    rfl

end GoLua.Lower
