import GoLua.Proofs.Brackets.Convert

/-!
# Operators on twins

The rules of unary and binary operators, but for addresses and receives. A connective asks what its right
operand left behind and whether it may suspend; both are the same for twins.
-/

namespace GoLua

open Lower Template

variable {scene : Scene} {k l : Nat} {c c' a a' b b' e e' : Expr}

/-! ### Connectives -/

/-- A connective cuts off what its right operand leaves, which is as much on both sides. -/
theorem mirrors_logical (ha : Twin scene k l a a') (hb : Twin scene k l b b') (hid : e'.id = e.id)
    (op : BinaryOp) :
    Mirrors scene (logical (within k) e op a b) (logical (within l) e' op a' b') := by
  unfold logical
  rw [hid]
  have hvalue : Mirrors scene (inRightOf e.id (within k b none)) (inRightOf e.id (within l b' none)) :=
    mirrors_inRightOf e.id (hb.here none)
  -- The mark is the same number in both runs, so the same statements become the branch.
  refine (ha.here none).bind fun condition => mirrors_pendingCount.bind fun mark => ?_
  refine hvalue.bind fun value => ?_
  refine (mirrors_splitPending mark).bind fun body => ?_
  refine (mirrors_isSuspending hb.alike).bind fun suspends => ?_
  refine mirrors_ite (fun _ => mirrors_pure rfl) fun _ => ?_
  exact (mirrors_newTemporary "_v").bind fun _ => (mirrors_leave _ _ _).bind fun _ => mirrors_pure rfl

/-! ### Equality -/

/-- Comparing with `nil` asks for the type only. -/
theorem mirrors_equalsNil (h : Twin scene k l c c') (e e' : Expr) (negated : Bool) (type : GoType) :
    Mirrors scene (equalsNil (within k) e negated c type)
      (equalsNil (within l) e' negated c' type) := by
  refine (mirrors_config _).bind fun hostObject => ?_
  refine mirrors_ite (fun _ => mirrors_renderParen _ h.alone) fun _ => ?_
  split
  · exact mirrors_renderParen _ h.alone
  · exact mirrors_renderParen _ h.alone
  · exact mirrors_renderParen _ h.alone
  all_goals first
    | exact (mirrors_render _ h.alone).bind fun _ => mirrors_pure rfl
    | exact mirrors_unsupported _ _ _ _

/-- Comparing interface values converts both operands, in the same order on both sides. -/
theorem mirrors_interfaceEquality (ha : Twin scene k l a a') (hb : Twin scene k l b b')
    (leftType rightType : GoType) :
    Mirrors scene (interfaceEquality (within k) a b leftType rightType)
      (interfaceEquality (within l) a' b' leftType rightType) := by
  refine mirrors_ite (fun _ => ?_) fun _ => mirrors_ite (fun _ => ?_) fun _ => ?_
  · refine (mirrors_implicit hb leftType).bind fun boxed => ?_
    exact mirrors_render _ (.cons (.expr ha) (.cons (.lowered boxed) .nil))
  · refine (mirrors_implicit ha rightType).bind fun boxed => ?_
    exact mirrors_render _ (.cons (.lowered boxed) hb.alone)
  · exact mirrors_render _ (ha.beside hb)

/-- A truth value that is known is no operand. -/
theorem mirrors_comparedWith (ha : Twin scene k l a a') (hb : Twin scene k l b b') (negated : Bool)
    (type : GoType) (truth? : Option Bool) :
    Mirrors scene (comparedWith (within k) negated a b type truth?)
      (comparedWith (within l) negated a' b' type truth?) := by
  cases truth? with
  | some truth => exact (ha.here none).bind fun _ => mirrors_pure rfl
  | none =>
    exact mirrors_ite (fun _ => mirrors_renderParen _ (ha.beside hb)) fun _ =>
      mirrors_renderParen _ (ha.beside hb)

/-- Whether the right operand is known is the same for twins. -/
theorem mirrors_plainEquality (ha : Twin scene k l a a') (hb : Twin scene k l b b') (negated : Bool)
    (type : GoType) :
    Mirrors scene (plainEquality (within k) negated a b type)
      (plainEquality (within l) negated a' b' type) := by
  refine mirrors_ite (fun _ => ?_) fun _ => mirrors_comparedWith ha hb negated type none
  exact (mirrors_constantOf hb.alike).bind fun _ => mirrors_comparedWith ha hb negated type _

/-- Which way two values are compared depends on their types, and on which of them is `nil`. -/
theorem mirrors_equalityOf (ha : Twin scene k l a a') (hb : Twin scene k l b b') (e e' : Expr)
    (negated : Bool) :
    Mirrors scene (equalityOf (within k) e negated a b)
      (equalityOf (within l) e' negated a' b') := by
  refine (mirrors_typeOf ha.alike).bind fun leftType => ?_
  refine (mirrors_typeOf hb.alike).bind fun rightType => hb.isNil.bind fun isNil => ?_
  refine mirrors_ite (fun _ => mirrors_equalsNil ha e e' negated leftType) fun _ => ?_
  refine mirrors_ite (fun _ => ?_) fun _ => mirrors_ite (fun _ => ?_) fun _ => ?_
  · exact (mirrors_interfaceEquality ha hb leftType rightType).bind fun _ => mirrors_pure rfl
  · exact (mirrors_render _ (ha.beside hb)).bind fun _ => mirrors_pure rfl
  · exact mirrors_plainEquality ha hb negated leftType

/-- The operands change places on both sides or on neither. -/
theorem mirrors_equality (ha : Twin scene k l a a') (hb : Twin scene k l b b') (e e' : Expr)
    (negated : Bool) :
    Mirrors scene (equality (within k) e negated a b) (equality (within l) e' negated a' b') := by
  refine ha.isNil.bind fun leftNil => hb.isNil.bind fun rightNil => ?_
  exact mirrors_ite (fun _ => mirrors_equalityOf hb ha e e' negated) fun _ =>
    mirrors_equalityOf ha hb e e' negated

/-! ### Order -/

theorem mirrors_ordering (ha : Twin scene k l a a') (hb : Twin scene k l b b') (op : BinaryOp) :
    Mirrors scene (ordering (within k) op a b) (ordering (within l) op a' b') := by
  refine (mirrors_typeOf ha.alike).bind fun type => ?_
  exact mirrors_renderParen _ (.cons (.expr ha) (.cons (.operator op) hb.alone))

/-! ### Arithmetic -/

theorem mirrors_plainOperator (ha : Twin scene k l a a') (hb : Twin scene k l b b') (op : BinaryOp) :
    Mirrors scene (plainOperator (within k) op a b) (plainOperator (within l) op a' b') :=
  mirrors_renderParen _ (.cons (.expr ha) (.cons (.operator op) hb.alone))

theorem mirrors_binaryCall (ha : Twin scene k l a a') (hb : Twin scene k l b b') (helper : String) :
    Mirrors scene (binaryCall (within k) helper a b) (binaryCall (within l) helper a' b') :=
  mirrors_render _ (ha.beside hb)

theorem mirrors_complexArithmetic (ha : Twin scene k l a a') (hb : Twin scene k l b b')
    (e e' : Expr) (op : BinaryOp) :
    Mirrors scene (complexArithmetic (within k) e op a b)
      (complexArithmetic (within l) e' op a' b') := by
  have hoperands : List.Forall₂ (OperandTwin scene k l) [.expr a, .expr b, .operator op]
      [.expr a', .expr b', .operator op] := .cons (.expr ha) (.cons (.expr hb) (.cons (.operator op) .nil))
  cases op with
  | add | sub => exact mirrors_render _ hoperands
  | mul => exact mirrors_render _ (ha.beside hb)
  | quo => exact mirrors_binaryCall ha hb _
  | _ => exact mirrors_unsupported _ _ _ _

theorem mirrors_shiftLeft (ha : Twin scene k l a a') (hb : Twin scene k l b b') (kind : Kind) :
    Mirrors scene (shiftLeft (within k) a b kind) (shiftLeft (within l) a' b' kind) := by
  refine (mirrors_intConstantOf hb.alike).bind fun count => mirrors_ite (fun _ => ?_) fun _ => ?_
  · refine ha.isRepeatable.bind fun repeatable => ?_
    exact mirrors_ite (fun _ => mirrors_pure rfl) fun _ => mirrors_renderParen _ ha.alone
  · exact (mirrors_renderParen _ (ha.beside hb)).bind fun _ => mirrors_pure rfl

/-- Each operator has the same pattern on both sides. -/
theorem mirrors_integerArithmetic (ha : Twin scene k l a a') (hb : Twin scene k l b b')
    (e e' : Expr) (op : BinaryOp) (kind : Kind) :
    Mirrors scene (integerArithmetic (within k) e op a b kind)
      (integerArithmetic (within l) e' op a' b' kind) := by
  cases op with
  | add | sub | mul => exact (mirrors_plainOperator ha hb _).bind fun _ => mirrors_pure rfl
  | quo => exact (mirrors_binaryCall ha hb _).bind fun _ => mirrors_pure rfl
  | rem => exact mirrors_binaryCall ha hb _
  | shl => exact mirrors_shiftLeft ha hb kind
  | shr =>
    exact mirrors_ite (fun _ => mirrors_renderParen _ (ha.beside hb)) fun _ =>
      mirrors_render _ (ha.beside hb)
  | and | or | xor => exact mirrors_plainOperator ha hb _
  | andNot => exact mirrors_renderParen _ (ha.beside hb)
  | _ => exact mirrors_unsupported _ _ _ _

/-- The kind of the operands decides between strings, complex numbers, floats and integers. -/
theorem mirrors_arithmeticOn (ha : Twin scene k l a a') (hb : Twin scene k l b b') (e e' : Expr)
    (op : BinaryOp) (type : GoType) (kind : Kind) :
    Mirrors scene (arithmeticOn (within k) e op a b type kind)
      (arithmeticOn (within l) e' op a' b' type kind) := by
  refine mirrors_ite (fun _ => ?_) fun _ => ?_
  · exact mirrors_ite (fun _ => mirrors_renderParen _ (ha.beside hb)) fun _ =>
      mirrors_unsupported _ _ _ _
  refine mirrors_ite (fun _ => mirrors_complexArithmetic ha hb e e' op) fun _ => ?_
  refine mirrors_ite (fun _ => ?_) fun _ => ?_
  · cases op with
    | add | sub | mul | quo => exact mirrors_plainOperator ha hb _
    | _ => exact mirrors_unsupported _ _ _ _
  exact mirrors_ite (fun _ => mirrors_integerArithmetic ha hb e e' op kind) fun _ =>
    mirrors_unsupported _ _ _ _

/-- The type of the result is that of one and the same node. -/
theorem mirrors_arithmetic (ha : Twin scene k l a a') (hb : Twin scene k l b b') (hid : e'.id = e.id)
    (op : BinaryOp) :
    Mirrors scene (arithmetic (within k) e op a b) (arithmetic (within l) e' op a' b') := by
  refine (mirrors_typeOf (.of_eq hid)).bind fun type => ?_
  cases type.basicKind? with
  | none => exact mirrors_unsupported _ _ _ _
  | some kind => exact mirrors_arithmeticOn ha hb e e' op type kind

/-- **Binary expressions.** -/
theorem mirrors_binary (ha : Twin scene k l a a') (hb : Twin scene k l b b') (hid : e'.id = e.id)
    (op : BinaryOp) :
    Mirrors scene (binary (within k) e op a b) (binary (within l) e' op a' b') := by
  cases op with
  | logicalAnd | logicalOr => exact mirrors_logical ha hb hid _
  | eql | neq => exact mirrors_equality ha hb e e' _
  | lss | leq | gtr | geq => exact mirrors_ordering ha hb _
  | _ => exact mirrors_arithmetic ha hb hid _

/-! ### Unary operators -/

/-- Every unary operator lowers its operand once. -/
theorem mirrors_unaryOperator (h : Twin scene k l c c') (e e' : Expr) (op : UnaryOp) :
    Mirrors scene (unaryOperator (within k) e c op) (unaryOperator (within l) e' c' op) := by
  refine (mirrors_typeOf h.alike).bind fun type => ?_
  cases type.basicKind? with
  | none => exact mirrors_unsupported _ _ _ _
  | some kind =>
    cases op with
    | neg =>
      refine mirrors_ite (fun _ => mirrors_render _ h.alone) fun _ => ?_
      exact (mirrors_renderParen _ h.alone).bind fun _ => mirrors_pure rfl
    | bitNot => exact (mirrors_renderParen _ h.alone).bind fun _ => mirrors_pure rfl
    | not => exact mirrors_renderParen _ h.alone
    | _ => exact h.here none

end GoLua
