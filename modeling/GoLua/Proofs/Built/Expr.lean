import GoLua.Proofs.Built.Call
import GoLua.Proofs.Built.Composite

/-!
# Lowering is built from its operations

Every expression is lowered by a computation that is put together from the operations, and spends no
more than the price of the expression (`Built.expression`). This is the one walk through the rules;
what holds of all operations is carried over to lowering in `GoLua.Proofs.Law`.
-/

namespace GoLua.Built

variable {S : Setting} {I : NodeId → Prop} {w : Nat} {e left right : Expr}

/-! ### Equality and order -/

theorem equalsNil {value : Expr} (h : value.Fits S I) (negated : Bool) (type : GoType) :
    Builds S I (S.prices.price value) (Lower.equalsNil S.self e negated value type) := by
  refine (config _).free fun hostObject _ => ite (fun _ => renderOne h true _) fun _ => ?_
  split
  all_goals first
    | exact unsupported
    | exact renderOne h true _
    | exact (renderOne h false _).seq (Nat.le_refl _) fun text _ => .pure trivial

/-- Both sides of an interface comparison are paid for once. -/
theorem interfaceEquality (hleft : left.Fits S I) (hright : right.Fits S I)
    (leftType rightType : GoType) :
    Builds S I (S.prices.price left + S.prices.price right)
      (Lower.interfaceEquality S.self left right leftType rightType) := by
  refine ite (fun _ => ?_) fun _ => ite (fun _ => ?_) fun _ => renderTwo hleft hright false _
  · refine (implicit hright leftType).seq (by omega) fun boxed _ => ?_
    refine (renderAs [.expr left, .lowered boxed] ?_ false _).spending ?_
    · simpa [Operand.Fits] using hleft
    · simp [Setting.price]
  · refine (implicit hleft rightType).seq (by omega) fun boxed _ => ?_
    refine (renderAs [.lowered boxed, .expr right] ?_ false _).spending ?_
    · simpa [Operand.Fits] using hright
    · simp [Setting.price]

/-- A known truth value costs nothing. -/
theorem comparedWith (hleft : left.Fits S I) (hright : right.Fits S I) (negated : Bool)
    (type : GoType) (truth? : Option Bool) :
    Builds S I (S.prices.price left + S.prices.price right)
      (Lower.comparedWith S.self negated left right type truth?) := by
  cases truth? with
  | some truth => exact (lower hleft none).seq (Nat.le_add_right _ _) fun text _ => .pure trivial
  | none => exact ite (fun _ => renderTwo hleft hright true _) fun _ => renderTwo hleft hright true _

theorem plainEquality (hleft : left.Fits S I) (hright : right.Fits S I) (negated : Bool)
    (type : GoType) :
    Builds S I (S.prices.price left + S.prices.price right)
      (Lower.plainEquality S.self negated left right type) := by
  refine ite (fun _ => ?_) fun _ => comparedWith hleft hright negated type none
  exact (constantOf hright.id).free fun c _ => comparedWith hleft hright negated type _

/-- Every way to compare pays for both sides at most once. -/
theorem equalityOf (hleft : left.Fits S I) (hright : right.Fits S I) (negated : Bool) :
    Builds S I (S.prices.price left + S.prices.price right)
      (Lower.equalityOf S.self e negated left right) := by
  refine (typeOf hleft.id).free fun leftType _ => (typeOf hright.id).free fun rightType _ => ?_
  refine (isNil hright.unparen.id).free fun nilOnRight _ => ite (fun _ => ?_) fun _ => ?_
  · exact (equalsNil hleft negated leftType).spending (Nat.le_add_right _ _)
  refine ite (fun _ => ?_) fun _ => ite (fun _ => ?_) fun _ => plainEquality hleft hright negated _
  · exact (interfaceEquality hleft hright _ _).seq (Nat.le_refl _) fun text _ => .pure trivial
  · exact (renderTwo hleft hright false _).seq (Nat.le_refl _) fun text _ => .pure trivial

/-- Also when they change places. -/
theorem equality (hleft : left.Fits S I) (hright : right.Fits S I) (negated : Bool) :
    Builds S I (S.prices.price left + S.prices.price right)
      (Lower.equality S.self e negated left right) := by
  have hswapped : Builds S I (S.prices.price left + S.prices.price right)
      (Lower.equalityOf S.self e negated right left) :=
    (equalityOf hright hleft negated).spending (by omega)
  refine (isNil hleft.unparen.id).free fun nilOnLeft _ => ?_
  refine (isNil hright.unparen.id).free fun nilOnRight _ => ?_
  exact ite (fun _ => hswapped) fun _ => equalityOf hleft hright negated

/-- An operator between two operands, whose token is written as a third one. -/
theorem renderOperator (hleft : left.Fits S I) (hright : right.Fits S I) (op : BinaryOp)
    (parens : Bool) (pattern : String) :
    Builds S I (S.prices.price left + S.prices.price right)
      (Template.renderAs parens S.self pattern [.expr left, .operator op, .expr right]) := by
  refine (renderAs _ (fun o ho => ?_) parens pattern).spending ?_
  · simp only [List.mem_cons, List.not_mem_nil, or_false] at ho
    rcases ho with rfl | rfl | rfl
    · exact hleft
    · trivial
    · exact hright
  · simp [Setting.price]

theorem ordering (hleft : left.Fits S I) (hright : right.Fits S I) (op : BinaryOp) :
    Builds S I (S.prices.price left + S.prices.price right)
      (Lower.ordering S.self op left right) :=
  (typeOf hleft.id).free fun _ _ => renderOperator hleft hright op true _

/-! ### Arithmetic -/

theorem plainOperator (hleft : left.Fits S I) (hright : right.Fits S I) (op : BinaryOp) :
    Builds S I (S.prices.price left + S.prices.price right)
      (Lower.plainOperator S.self op left right) :=
  renderOperator hleft hright op true "%e %t %e"

theorem binaryCall (hleft : left.Fits S I) (hright : right.Fits S I) (helper : String) :
    Builds S I (S.prices.price left + S.prices.price right)
      (Lower.binaryCall S.self helper left right) :=
  renderTwo hleft hright false _

/-- A complex product or quotient is a helper's work. -/
theorem complexArithmetic (hleft : left.Fits S I) (hright : right.Fits S I) (op : BinaryOp) :
    Builds S I (S.prices.price left + S.prices.price right)
      (Lower.complexArithmetic S.self e op left right) := by
  have hparts (pattern : String) : Builds S I (S.prices.price left + S.prices.price right)
      (Template.renderAs false S.self pattern [.expr left, .expr right, .operator op]) := by
    refine (renderAs _ (fun o ho => ?_) false pattern).spending ?_
    · simp only [List.mem_cons, List.not_mem_nil, or_false] at ho
      rcases ho with rfl | rfl | rfl
      · exact hleft
      · exact hright
      · trivial
    · simp [Setting.price]
  unfold Lower.complexArithmetic
  split
  · exact hparts _
  · exact hparts _
  · exact renderTwo hleft hright false _
  · exact binaryCall hleft hright _
  · exact unsupported

/-- A shift pays for its sides at most once, and for the right one only where it is written. -/
theorem shiftLeft (hleft : left.Fits S I) (hright : right.Fits S I) (kind : Kind) :
    Builds S I (S.prices.price left + S.prices.price right)
      (Lower.shiftLeft S.self left right kind) := by
  refine (intConstantOf hright.id).free fun count _ => ite (fun _ => ?_) fun _ => ?_
  · refine (isRepeatableExpr hleft.id).free fun repeatable _ => ?_
    refine ite (fun _ => .pure trivial) fun _ => ?_
    exact (renderOne hleft true _).spending (Nat.le_add_right _ _)
  · exact (renderTwo hleft hright true _).seq (Nat.le_refl _) fun text _ => .pure trivial

/-- Integer operators pay for both sides once. -/
theorem integerArithmetic (hleft : left.Fits S I) (hright : right.Fits S I) (op : BinaryOp)
    (kind : Kind) :
    Builds S I (S.prices.price left + S.prices.price right)
      (Lower.integerArithmetic S.self e op left right kind) := by
  unfold Lower.integerArithmetic
  split
  · exact (plainOperator hleft hright _).seq (Nat.le_refl _) fun text _ => .pure trivial
  · exact (plainOperator hleft hright _).seq (Nat.le_refl _) fun text _ => .pure trivial
  · exact (plainOperator hleft hright _).seq (Nat.le_refl _) fun text _ => .pure trivial
  · exact (binaryCall hleft hright _).seq (Nat.le_refl _) fun text _ => .pure trivial
  · exact binaryCall hleft hright _
  · exact shiftLeft hleft hright kind
  · exact ite (fun _ => renderTwo hleft hright true _) fun _ => renderTwo hleft hright false _
  · exact plainOperator hleft hright _
  · exact plainOperator hleft hright _
  · exact plainOperator hleft hright _
  · exact renderTwo hleft hright true _
  · exact unsupported

theorem arithmetic (he : I e.id) (hleft : left.Fits S I) (hright : right.Fits S I)
    (op : BinaryOp) :
    Builds S I (S.prices.price left + S.prices.price right)
      (Lower.arithmetic S.self e op left right) := by
  refine (typeOf he).free fun type _ => ?_
  split
  · exact unsupported
  refine ite (fun _ => ite (fun _ => renderTwo hleft hright true _) fun _ => unsupported) fun _ => ?_
  refine ite (fun _ => complexArithmetic hleft hright op) fun _ => ite (fun _ => ?_) fun _ => ?_
  · split
    all_goals first
      | exact plainOperator hleft hright _
      | exact unsupported
  · exact ite (fun _ => integerArithmetic hleft hright op _) fun _ => unsupported

/-- A connective is its own step; any other operator pays for both sides. -/
theorem binary {n : Node} {op : BinaryOp} (h : (Expr.binary n op left right).Fits S I) :
    Builds S I (S.prices.price left + S.prices.price right)
      (Lower.binary S.self (.binary n op left right) op left right) := by
  cases hop : op.isLogical with
  | true =>
    have hlogical := logical hop (h.known.part (by simp [Expr.parts]))
      (h.known.part (by simp [Expr.parts])) (h.outer.connective_of hop)
    cases op <;> first | exact hlogical | simp [BinaryOp.isLogical] at hop
  | false =>
    have hleft : left.Fits S I := h.part hop (by simp [Expr.parts])
    have hright : right.Fits S I := h.part hop (by simp [Expr.parts])
    cases op
    case logicalAnd | logicalOr => simp [BinaryOp.isLogical] at hop
    case eql | neq => exact equality hleft hright _
    case lss | leq | gtr | geq => exact ordering hleft hright _
    all_goals exact arithmetic h.id hleft hright _

/-! ### Expressions -/

/-- A function literal pays for its body once. -/
theorem functionLiteral {n : Node} {body : Nat} (h : I n.id) :
    Builds S I (S.prices.body body) (Lower.functionLiteral (.funcLit n body) body) := by
  refine (typeOf h).free fun type _ => ?_
  cases type.signature? with
  | none => exact bodySource.free fun source _ => unsupported
  | some sig =>
    refine (requestBody (w := 0) body sig unsupported (fun _ => rfl) fun function => ?_)
    exact .pure trivial

/-- What is lowered by its form costs its own effect and its parts. -/
theorem byForm (h : e.Fits S I) (desired : Option GoType) :
    Builds S I (S.prices.effect e + sumOf S.prices.full e.parts)
      (Lower.byForm S.self e desired) := by
  -- A rule pays for the parts that it lowers; each is there to be paid for in full.
  have hparts := S.prices.sumOf_price_le e.parts
  cases e with
  | basicLit n token => exact unsupported
  | ident n name => exact (identifier h.id name).spending (Nat.zero_le _)
  | unary n op operand =>
    exact (unary (n := n) h.id (h.part rfl (by simp [Expr.parts]))).spending (by simp [Expr.parts])
  | binary n op left right =>
    refine (binary h).spending ?_
    simp only [Expr.parts, sumOf_cons, sumOf_nil] at hparts ⊢
    omega
  | index n base place =>
    refine (index h.id (h.part rfl (by simp [Expr.parts])) (h.part rfl (by simp [Expr.parts]))).spending ?_
    simp only [Expr.parts, sumOf_cons, sumOf_nil] at hparts ⊢
    omega
  | slice n base low high max =>
    refine (slice (h.part rfl (by simp [Expr.parts])) fun c hc => h.part rfl ?_).spending ?_
    · exact List.mem_cons_of_mem _ hc
    · simp only [Expr.parts, sumOf_cons] at hparts ⊢
      omega
  | selector n base sel =>
    refine (selector h.id (h.part rfl (by simp [Expr.parts]))
      (h.part (c := sel) rfl (by simp [Expr.parts])).id).spending ?_
    simp only [Expr.parts, sumOf_cons, sumOf_nil]
    omega
  | call n func args ellipsis =>
    have hargs := S.prices.sumOf_price_le args
    refine (callExpr h.id (h.part rfl (by simp [Expr.parts])) (fun a ha => h.part rfl ?_)
      ellipsis).spending ?_
    · exact List.mem_cons_of_mem _ ha
    · simp only [Expr.parts, sumOf_cons, Prices.effect]
      change S.prices.suspend n.id + (S.prices.full func + sumOf S.prices.price args) ≤ _
      omega
  | compositeLit n elements =>
    exact (composite h.id fun c hc => h.part rfl hc).spending (Nat.le_trans hparts (Nat.le_add_left _ _))
  | typeAssert n base asserted =>
    refine (typeAssertion h.id (h.part rfl (by simp [Expr.parts])) fun a ha => h.part rfl ?_).spending ?_
    · simpa [Expr.parts] using Or.inr ha
    · simp only [Expr.parts, sumOf_cons] at hparts ⊢
      omega
  | paren n inner =>
    refine (lower (h.part rfl (by simp [Expr.parts])) desired).spending ?_
    simp only [Expr.parts, sumOf_cons, sumOf_nil] at hparts ⊢
    omega
  | star n inner =>
    refine (dereference h.id (h.part rfl (by simp [Expr.parts]))).spending ?_
    simp only [Expr.parts, sumOf_cons, sumOf_nil] at hparts ⊢
    omega
  | funcLit n body => exact (functionLiteral h.id).spending (Nat.le_add_right _ _)
  | typeExpr n => exact unsupported

/-- **Lowering is built.** An expression is lowered for its price. -/
theorem expression (h : e.Fits S I) (desired : Option GoType) :
    Builds S I (S.prices.price e) (Lower.expression S.self e desired) := by
  refine (typeOf h.id).free fun type _ => (constantOf h.id).free fun c hc => ?_
  cases c with
  | some c => exact (constantLower c type desired _).spending (Nat.zero_le _)
  | none =>
    have hcost : S.prices.price e
        = S.prices.form e + (S.prices.effect e + sumOf S.prices.full e.parts) := by
      rw [S.prices.price_eq_full hc.symm, S.prices.full_eq, Prices.node, Nat.add_assoc]
    rw [hcost]
    exact (recordLowered e).bind fun _ _ => byForm h desired

end GoLua.Built
