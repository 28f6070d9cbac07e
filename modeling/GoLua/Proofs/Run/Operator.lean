import GoLua.Proofs.Template.Inline

/-!
# Runs of operators

What the rules of integer operators come to, given how their operands are written: which text is
put together, and in which state. The left operand is lowered first, and both texts stay in place
whatever their lowering has left among the pending statements.
-/

namespace GoLua.Lower

open Lua Template

variable {self : Lowering} {env : Env} {s s₁ s' : FunctionState} {left right operand : Expr}
  {l r text : String} {tag : Tag}

/-- Nothing is written. -/
theorem fixed_nil {pattern : String} {named : List (Operand × Option String)} :
    Fixed self env pattern named [] "" :=
  ⟨[], rfl, fun _ => rfl⟩

/-- A literal is written as it is. -/
theorem fixed_literal {pattern : String} {named : List (Operand × Option String)}
    (cs : List Char) : Fixed self env pattern named [.literal cs] (String.ofList cs) :=
  ⟨[String.ofList cs], by simp [String.join], fun _ => rfl⟩

/-! ### One operand -/

/-- A text with something before it. -/
theorem runIn_renderParen_before {before : List Char} {pattern : String}
    (hparse : parse 1 pattern = .ok [.literal before, .placeholder [] 0 .expression])
    (h : Puts self env .expression s operand text s') :
    (renderParen self pattern [operand]).runIn env s =
      (.ok (.operation (String.ofList before ++ text)), s') := by
  have honce : (evaluated [.literal before, .placeholder [] 0 .expression]).Nodup :=
    List.nodup_singleton 0
  refine (runIn_renderAs_one [.expr operand] [.literal before] [] (i := 0) hparse honce rfl
    (fixed_literal before) h fixed_nil true).trans ?_
  rw [String.append_empty]
  rfl

theorem runIn_neg (h : Puts self env .expression s operand text s') :
    (renderParen self "-%e" [operand]).runIn env s = (.ok (.operation ("-" ++ text)), s') :=
  runIn_renderParen_before rfl h

theorem runIn_bitNot (h : Puts self env .expression s operand text s') :
    (renderParen self "~%e" [operand]).runIn env s = (.ok (.operation ("~" ++ text)), s') :=
  runIn_renderParen_before rfl h

/-- A text with something behind it. -/
theorem runIn_renderParen_behind {behind : List Char} {pattern : String}
    (hparse : parse 1 pattern = .ok [.placeholder [] 0 .expression, .literal behind])
    (h : Puts self env .expression s operand text s') :
    (renderParen self pattern [operand]).runIn env s =
      (.ok (.operation (text ++ String.ofList behind)), s') := by
  have honce : (evaluated [.placeholder [] 0 .expression, .literal behind]).Nodup :=
    List.nodup_singleton 0
  refine (runIn_renderAs_one [.expr operand] [] [.literal behind] (i := 0) hparse honce rfl
    fixed_nil h (fixed_literal behind) true).trans ?_
  rw [String.empty_append]
  rfl

/-- A value of which nothing is left. -/
theorem runIn_cleared (h : Puts self env .expression s operand text s') :
    (renderParen self "%e & 0" [operand]).runIn env s =
      (.ok (.operation (text ++ " & 0")), s') :=
  runIn_renderParen_behind rfl h

/-! ### Two operands -/

/-- Two operands with a token of their own between them. -/
theorem runIn_plainOperator (hl : Puts self env .expression s left l s₁)
    (hr : Puts self env .expression s₁ right r s') (op : BinaryOp) :
    (plainOperator self op left right).runIn env s =
      (.ok (.operation (l ++ (" " ++ op.luaToken ++ " ") ++ r)), s') := by
  have hbetween : Fixed self env "%e %t %e"
      (withNames [.expr left, .operator op, .expr right] [])
      [.literal [' '], .placeholder [] 1 .operator, .literal [' ']]
      (" " ++ op.luaToken ++ " ") :=
    ⟨[" ", op.luaToken, " "], by simp [String.join], fun _ => rfl⟩
  refine (runIn_renderAs_two [.expr left, .operator op, .expr right] [] [.literal [' '],
    .placeholder [] 1 .operator, .literal [' ']] [] (i := 0) (j := 2) rfl (by decide) rfl rfl
    fixed_nil hl hbetween hr fixed_nil true).trans ?_
  rw [String.append_empty, String.empty_append]
  rfl

/-- Two operands with something between them. -/
theorem runIn_renderParen_between {between : List Char} {pattern : String}
    (hparse : parse 2 pattern =
      .ok [.placeholder [] 0 .expression, .literal between, .placeholder [] 1 tag])
    (honce : (evaluated
      [.placeholder [] 0 .expression, .literal between, .placeholder [] 1 tag]).Nodup)
    (hl : Puts self env .expression s left l s₁) (hr : Puts self env tag s₁ right r s') :
    (renderParen self pattern [left, right]).runIn env s =
      (.ok (.operation (l ++ String.ofList between ++ r)), s') := by
  refine (runIn_renderAs_two [.expr left, .expr right] [] [.literal between] [] (i := 0) (j := 1)
    hparse honce rfl rfl fixed_nil hl (fixed_literal between) hr fixed_nil true).trans ?_
  rw [String.append_empty, String.empty_append]
  rfl

theorem runIn_andNot (hl : Puts self env .expression s left l s₁)
    (hr : Puts self env .expression s₁ right r s') :
    (renderParen self "%e & ~%e" [left, right]).runIn env s =
      (.ok (.operation (l ++ " & ~" ++ r)), s') :=
  runIn_renderParen_between rfl (by decide) hl hr

theorem runIn_shiftedLeft (hl : Puts self env .expression s left l s₁)
    (hr : Puts self env .folded s₁ right r s') :
    (renderParen self "%e << %f" [left, right]).runIn env s =
      (.ok (.operation (l ++ " << " ++ r)), s') :=
  runIn_renderParen_between rfl (by decide) hl hr

theorem runIn_shiftedRight (hl : Puts self env .expression s left l s₁)
    (hr : Puts self env .folded s₁ right r s') :
    (renderParen self "%e >> %f" [left, right]).runIn env s =
      (.ok (.operation (l ++ " >> " ++ r)), s') :=
  runIn_renderParen_between rfl (by decide) hl hr

/-- A function of the library of two operands. -/
theorem runIn_call (helper : List Char) {pattern : String}
    (hparse : parse 2 pattern = .ok [.literal (helper ++ ['(']), .placeholder [] 0 .expression,
      .literal [',', ' '], .placeholder [] 1 tag, .literal [')']])
    (honce : (evaluated [.literal (helper ++ ['(']), .placeholder [] 0 .expression,
      .literal [',', ' '], .placeholder [] 1 tag, .literal [')']]).Nodup)
    (hl : Puts self env .expression s left l s₁) (hr : Puts self env tag s₁ right r s') :
    (render self pattern [left, right]).runIn env s =
      (.ok (.atom (String.ofList (helper ++ ['(']) ++ l ++ ", " ++ r ++ ")")), s') :=
  runIn_renderAs_two [.expr left, .expr right] [.literal (helper ++ ['('])] [.literal [',', ' ']]
    [.literal [')']] (i := 0) (j := 1) hparse honce rfl rfl (fixed_literal _) hl (fixed_literal _) hr
    (fixed_literal _) false

/-! ### Order -/

/-- An ordering of cells as they are. -/
theorem runIn_ordering {type : GoType} (htype : env.type? s left.id = some type)
    (hkind : type.basicKind? ≠ some .uint64) (hl : Puts self env .expression s left l s₁)
    (hr : Puts self env .expression s₁ right r s') (op : BinaryOp) :
    (ordering self op left right).runIn env s =
      (.ok (.operation (l ++ (" " ++ op.luaToken ++ " ") ++ r)), s') := by
  have hfound : (typeOf left).runIn env s = (.ok type, s) := runIn_typeOf_of_type? htype
  rw [ordering, LowerM.runIn_bind_ok hfound, if_neg (by simpa using hkind)]
  exact runIn_plainOperator hl hr op

/-- An ordering of cells with their sign bits turned over. -/
theorem runIn_ordering_uint64 {type : GoType} (htype : env.type? s left.id = some type)
    (hkind : type.basicKind? = some .uint64) (hl : Puts self env .expression s left l s₁)
    (hr : Puts self env .expression s₁ right r s') (op : BinaryOp) :
    (ordering self op left right).runIn env s =
      (.ok (.operation ("(" ++ l ++ (" ~ math.mininteger) " ++ op.luaToken ++ " (") ++ r ++
        " ~ math.mininteger)")), s') := by
  have hfound : (typeOf left).runIn env s = (.ok type, s) := runIn_typeOf_of_type? htype
  rw [ordering, LowerM.runIn_bind_ok hfound, if_pos (by simp [hkind])]
  have hbetween : Fixed self env
      "(%e ~ math.mininteger) %t (%e ~ math.mininteger)"
      (withNames [.expr left, .operator op, .expr right] [])
      [.literal " ~ math.mininteger) ".toList, .placeholder [] 1 .operator,
        .literal " (".toList]
      (" ~ math.mininteger) " ++ op.luaToken ++ " (") :=
    ⟨[" ~ math.mininteger) ", op.luaToken, " ("], by simp [String.join], fun _ => rfl⟩
  exact runIn_renderAs_two [.expr left, .operator op, .expr right] [.literal ['(']]
    [.literal " ~ math.mininteger) ".toList, .placeholder [] 1 .operator, .literal " (".toList]
    [.literal " ~ math.mininteger)".toList] (i := 0) (j := 2) rfl (by decide) rfl rfl
    (fixed_literal _) hl hbetween hr (fixed_literal _) true

end GoLua.Lower
