import GoLua.Lower.Expr
import GoLua.Proofs.Written.Call
import GoLua.Proofs.Written.Composite

/-!
# Lowering keeps to the vocabulary

Operators, function literals, and lowering as a whole. From a sound state, an expression whose nodes are
settled is lowered to a sound fragment in a sound state, or fails in a way that is accounted for
(`lowers_within`); and so are all entry points of lowering.
-/

namespace GoLua

open Lua Template

section

variable {V : Vocabulary} {env : Env} {s : FunctionState} {self : Lowering} {e left right : Expr}

namespace Delivers

section

variable (hself : Lowers V self) (henv : env.Plain V)
include hself henv

/-! ### Equality and order -/

/-- A comparison with `nil` depends on the type of the other side. -/
theorem equalsNil {value : Expr} (h : value.Settles V env s) (negated : Bool) (type : GoType) :
    Delivers V env s (Lower.equalsNil self e negated value type) (IsSound V) := by
  have hcompared : Delivers V env s
      (renderParen self ("%e " ++ Lower.equalityToken negated ++ " nil") [value]) (IsSound V) := by
    cases negated <;> exact renderOne hself henv (.expr h) rfl
  have hasked : Delivers V env s
      (return (← render self (Support.isNil ++ "(%e)") [value]).negateIf negated) (IsSound V) :=
    Delivers.bind (Q := IsSound V) (renderOne hself henv (.expr h) rfl) fun s' text _ htext =>
      .pure (htext.negateIf negated)
  refine config (ite (fun _ => hcompared) fun _ => ?_)
  split
  all_goals first | exact hcompared | exact hasked | exact unsupported

/-- A comparison of interface values converts both sides. -/
theorem interfaceEquality (hleft : left.Settles V env s) (hright : right.Settles V env s)
    (leftType rightType : GoType) :
    Delivers V env s (Lower.interfaceEquality self left right leftType rightType) (IsSound V) := by
  have hflat : (patternFlat [.value, .value] [.text (Support.interfaceIsEqual ++ "(%e, %e)")]).any
      (false || ·) := by decide +kernel
  refine ite (fun _ => ?_) fun _ => ite (fun _ => ?_) fun _ =>
    renderTwo hself henv (.expr hleft) (.expr hright) hflat
  · refine (implicit hself henv hright leftType).bind fun s' boxed hgrows hboxed => ?_
    exact renderTwo hself henv (.expr (hleft.mono hgrows)) (.lowered hboxed) hflat
  · refine (implicit hself henv hleft rightType).bind fun s' boxed hgrows hboxed => ?_
    exact renderTwo hself henv (.lowered hboxed) (.expr (hright.mono hgrows)) hflat

/-- A comparison with a truth value that is known is the other side or its negation. -/
theorem comparedWith (hleft : left.Settles V env s) (hright : right.Settles V env s) (negated : Bool)
    (type : GoType) (truth? : Option Bool) :
    Delivers V env s (Lower.comparedWith self negated left right type truth?) (IsSound V) := by
  cases truth? with
  | some truth =>
    exact (hself.sound henv hleft none).bind fun s' text _ htext => .pure (htext.negateIf _)
  | none =>
    refine ite (fun _ => ?_) fun _ => ?_
    · cases negated <;>
        exact renderTwo hself henv (.expr hleft) (.expr hright) (by decide +kernel)
    · cases negated <;> exact renderTwo hself henv (.expr hleft) (.expr hright) rfl

/-- Basic and reference values are compared with a known truth value, or with each other. -/
theorem plainEquality (hleft : left.Settles V env s) (hright : right.Settles V env s) (negated : Bool)
    (type : GoType) :
    Delivers V env s (Lower.plainEquality self negated left right type) (IsSound V) := by
  refine ite (fun _ => ?_) fun _ => comparedWith hself henv hleft hright negated type none
  exact look (Lower.runIn_constantOf env s right) fun _ =>
    comparedWith hself henv hleft hright negated type _

/-- An equality compares with `nil`, as interfaces, part by part, or plainly. -/
theorem equalityOf (hleft : left.Settles V env s) (hright : right.Settles V env s) (negated : Bool) :
    Delivers V env s (Lower.equalityOf self e negated left right) (IsSound V) := by
  have hnegated {m : LowerM Fragment} (hm : Delivers V env s m (IsSound V)) :
      Delivers V env s (return (← m).negateIf negated) (IsSound V) :=
    hm.bind fun s' text _ htext => .pure (htext.negateIf negated)
  refine typeOf henv fun leftType hleftType => typeOf henv fun rightType _ => ?_
  refine isNil fun nilOnRight => ite (fun _ => equalsNil hself henv hleft negated leftType) fun _ => ?_
  refine ite (fun _ => hnegated (interfaceEquality hself henv hleft hright _ _)) fun _ => ?_
  refine ite (fun _ => hnegated ?_) fun _ => plainEquality hself henv hleft hright negated _
  exact renderAround hself henv (Support.equal ++ "(%e, %e, ") [.value, .value]
    (.cons (.expr hleft) (.cons (.expr hright) .nil)) (emits_quote _) (inert_quote hleftType.inert) rfl

/-- `nil` on the left changes places with the other side. -/
theorem equality (hleft : left.Settles V env s) (hright : right.Settles V env s) (negated : Bool) :
    Delivers V env s (Lower.equality self e negated left right) (IsSound V) := by
  refine isNil fun nilOnLeft => isNil fun nilOnRight => ?_
  exact ite (fun _ => equalityOf hself henv hright hleft negated) fun _ =>
    equalityOf hself henv hleft hright negated

/-- A pattern with an operator of the source between two operands. -/
theorem renderOperator {pattern : String} (hleft : left.Settles V env s) (hright : right.Settles V env s)
    (op : BinaryOp)
    (hflat : (patternFlat [.value, .operator, .value] [.text pattern]).any (true || ·)) :
    Delivers V env s (renderParen self pattern [left, op, right]) (IsSound V) :=
  renderFixed hself henv _ (.cons (.expr hleft) (.cons (.operator op) (.cons (.expr hright) .nil))) hflat

/-- An ordering compares texts, with the sign bits flipped for unsigned words. -/
theorem ordering (hleft : left.Settles V env s) (hright : right.Settles V env s) (op : BinaryOp) :
    Delivers V env s (Lower.ordering self op left right) (IsSound V) := by
  refine typeOf henv fun type _ => ?_
  dsimp only
  split
  · exact renderOperator hself henv hleft hright op (by decide +kernel)
  · exact renderOperator hself henv hleft hright op rfl

/-! ### Arithmetic -/

theorem plainOperator (hleft : left.Settles V env s) (hright : right.Settles V env s) (op : BinaryOp) :
    Delivers V env s (Lower.plainOperator self op left right) (IsSound V) :=
  renderOperator hself henv hleft hright op rfl

/-- A helper that takes both operands needs a pattern that is flat. -/
theorem binaryCall (hleft : left.Settles V env s) (hright : right.Settles V env s) {helper : String}
    (hflat : (patternFlat [.value, .value] [.text (helper ++ "(%e, %e)")]).any (false || ·)) :
    Delivers V env s (Lower.binaryCall self helper left right) (IsSound V) :=
  renderTwo hself henv (.expr hleft) (.expr hright) hflat

/-- Complex numbers have helpers and operators of their own. -/
theorem complexArithmetic (hleft : left.Settles V env s) (hright : right.Settles V env s) (op : BinaryOp) :
    Delivers V env s (Lower.complexArithmetic self e op left right) (IsSound V) := by
  have hsum : Delivers V env s (render self (Support.complex ++ "(%1r %3t %2r, %1i %3t %2i)")
      [left, right, op]) (IsSound V) :=
    renderFixed hself henv [.value, .value, .operator]
      (.cons (.expr hleft) (.cons (.expr hright) (.cons (.operator op) .nil))) (by decide +kernel)
  unfold Lower.complexArithmetic
  split
  · exact hsum
  · exact hsum
  · exact renderTwo hself henv (.expr hleft) (.expr hright) (by decide +kernel)
  · exact binaryCall hself henv hleft hright rfl
  · exact unsupported

omit hself henv in
/-- A result that is cut to its width. -/
theorem cutResult {m : LowerM Fragment} (h : Delivers V env s m (IsSound V)) (kind : Kind) :
    Delivers V env s (return cutToWidth (← m) kind) (IsSound V) :=
  h.bind fun _ _ _ hf => .pure (hf.cutToWidth kind)

/-- A left shift is cut to its kind. -/
theorem shiftLeft (hleft : left.Settles V env s) (hright : right.Settles V env s) (kind : Kind) :
    Delivers V env s (Lower.shiftLeft self left right kind) (IsSound V) := by
  refine look (a := (env.constant? s right.id).bind Constant.toInt?) rfl fun _ => ?_
  refine ite (fun _ => ?_) fun _ => cutResult (renderTwo hself henv (.expr hleft) (.expr hright) rfl) kind
  refine (isRepeatable (.expr left)).bind fun s' repeatable hgrows _ => ?_
  exact ite (fun _ => .pure (.atom (emits_text rfl))) fun _ =>
    renderOne hself henv (.expr (hleft.mono hgrows)) rfl

/-- Integer arithmetic depends on the operator and on the kind. -/
theorem integerArithmetic (hleft : left.Settles V env s) (hright : right.Settles V env s) (op : BinaryOp)
    (kind : Kind) :
    Delivers V env s (Lower.integerArithmetic self e op left right kind) (IsSound V) := by
  have hplain := plainOperator hself henv hleft hright op
  have htwo {parens : Bool} {pattern : String}
      (hflat : (patternFlat [.value, .value] [.text pattern]).any (parens || ·)) :
      Delivers V env s (Template.renderAs parens self pattern [left, right]) (IsSound V) :=
    renderTwo hself henv (.expr hleft) (.expr hright) hflat
  unfold Lower.integerArithmetic
  -- One case for each group of operators; the first four and left shifts are cut to the kind.
  split
  · exact cutResult hplain kind
  · exact cutResult hplain kind
  · exact cutResult hplain kind
  · dsimp only
    split <;> exact cutResult (binaryCall hself henv hleft hright rfl) kind
  · split <;> exact binaryCall hself henv hleft hright rfl
  · exact shiftLeft hself henv hleft hright kind
  · exact ite (fun _ => htwo rfl) fun _ => htwo rfl
  · exact hplain
  · exact hplain
  · exact hplain
  · exact htwo rfl
  · exact unsupported

/-- Any other arithmetic is that of floats, strings or complex numbers. -/
theorem arithmetic (hleft : left.Settles V env s) (hright : right.Settles V env s) (op : BinaryOp) :
    Delivers V env s (Lower.arithmetic self e op left right) (IsSound V) := by
  refine typeOf henv fun type _ => ?_
  split
  · exact unsupported
  refine ite (fun _ => ite (fun _ => ?_) fun _ => unsupported) fun _ => ?_
  · exact renderTwo hself henv (.expr hleft) (.expr hright) rfl
  refine ite (fun _ => complexArithmetic hself henv hleft hright op) fun _ => ite (fun _ => ?_) fun _ => ?_
  · split <;> first | exact plainOperator hself henv hleft hright _ | exact unsupported
  · exact ite (fun _ => integerArithmetic hself henv hleft hright op _) fun _ => unsupported

/-- A binary expression is a connective, a comparison or arithmetic. -/
theorem binary (hleft : left.Settles V env s) (hright : right.Settles V env s) (op : BinaryOp) :
    Delivers V env s (Lower.binary self e op left right) (IsSound V) := by
  unfold Lower.binary
  split
  · exact logical hself henv hleft hright e _
  · exact logical hself henv hleft hright e _
  · exact equality hself henv hleft hright _
  · exact equality hself henv hleft hright _
  · exact ordering hself henv hleft hright _
  · exact ordering hself henv hleft hright _
  · exact ordering hself henv hleft hright _
  · exact ordering hself henv hleft hright _
  · exact arithmetic hself henv hleft hright _

/-! ### Function literals -/

omit hself in
/-- A function literal is the text the body source gives, inside of brackets. -/
theorem functionLiteral (body : Nat) :
    Delivers V env s (Lower.functionLiteral e body) (IsSound V) := by
  refine typeOf henv fun type _ => look (a := env.bodies) rfl fun _ => ?_
  split
  · exact unsupported
  · exact unsupported
  · next sig source _ hsource =>
    refine (requestBody (henv.bodies source hsource) body sig).bind fun s' function _ h => ?_
    exact .pure (.atom (emits_closureText h.1 h.2))

/-! ### Expressions -/

/-- Every form of an expression writes a sound text. -/
theorem byForm (h : e.Settles V env s) (desired : Option GoType) :
    Delivers V env s (Lower.byForm self e desired) (IsSound V) := by
  -- One case for each constructor, with the parts that settle because the whole does.
  cases e with
  | basicLit n token => exact unsupported
  | ident n name => exact identifier henv h.here.node name
  | unary n op operand => exact unary hself henv (h.part (by simp [Expr.parts]))
  | binary n op left right =>
    exact binary hself henv (h.part (by simp [Expr.parts])) (h.part (by simp [Expr.parts])) op
  | index n base place =>
    exact index hself henv (h.part (by simp [Expr.parts])) (h.part (by simp [Expr.parts]))
  | slice n base low high max =>
    refine slice hself henv (h.part (by simp [Expr.parts])) fun bound hbound => h.part ?_
    simp only [List.mem_append] at hbound
    simp only [Expr.parts, List.mem_cons, List.mem_append]
    exact .inr hbound
  | selector n base sel =>
    exact selector hself henv h
  | call n func args ellipsis =>
    exact callExpr hself henv (h.part (by simp [Expr.parts]))
      (fun a ha => h.part (by simp [Expr.parts, ha])) h.here.regular
  | compositeLit n elements => exact composite hself henv fun c hc => h.part hc
  | typeAssert n base asserted => exact typeAssertion hself henv (h.part (by simp [Expr.parts]))
  | paren n inner => exact hself.sound henv (h.part (by simp [Expr.parts])) desired
  | star n inner => exact dereference hself henv (h.part (by simp [Expr.parts]))
  | funcLit n body => exact functionLiteral henv body
  | typeExpr n => exact unsupported

/-- An identifier is lowered to a name, in brackets or not. -/
theorem quietForm (h : e.Settles V env s) (hstrict : V.strict) (hident : e.unparen.isIdent)
    (hvalue : e.IsValue env.facts) (desired : Option GoType) :
    Delivers V env s (Lower.byForm self e desired) fun _ f => IsQuiet f.text.toList := by
  cases e with
  | ident n name => exact quietIdentifier henv h.here.node hstrict hvalue.2 name
  | paren n inner =>
    have hinner : inner.Settles V env s := h.part (by simp [Expr.parts])
    exact (hself henv hinner desired).weaken fun _ _ _ hf => hf.quiet hstrict hident hvalue.2
  | _ => cases hident

/-- A call of the library stays one while its node is noted down. -/
theorem expression (h : e.Settles V env s) (desired : Option GoType) :
    Delivers V env s (Lower.expression self e desired) (IsLowered V env s e) := by
  -- Either the value is known, or it is lowered by its form. What else is claimed concerns calls of
  -- library functions and names that are values, so these two cases are taken apart.
  refine assuming fun hs => typeOf henv fun type _ =>
    look (Lower.runIn_constantOf env s e) fun _ => ?_
  split
  · next hconstant =>
    refine constantLower.weaken fun _ f _ hf => ⟨hf.2, fun _ => hf.1, fun hstrict _ hvalue => ?_⟩
    rw [constant_eq_none hstrict hvalue hs] at hconstant
    cases hconstant
  next hconstant =>
  refine (recordLowered e).bind fun s₁ _ hgrows hoverlay => ?_
  have hbyForm := byForm hself henv (h.mono hgrows) desired
  by_cases hbare : IsBare env s e
  · obtain hsome | ⟨node, callee, name, args, obj, rfl, hobj, hkind, hpackage⟩ := hbare
    · simp [hconstant] at hsome
    have hcall : IsLibraryCall env s₁ (.call node (.ident callee name) args false) := by
      refine ⟨node, callee, name, args, obj, rfl, ?_, hkind, hpackage⟩
      unfold Env.binding at hobj ⊢
      rwa [hoverlay]
    have hcallee : (Expr.ident callee name).Settles V env s := h.part (by simp [Expr.parts])
    have hargs : ∀ a ∈ args, a.Settles V env s := fun a ha => h.part (by simp [Expr.parts, ha])
    refine (libraryCall hself henv hcall (hcallee.mono hgrows) fun a ha => ?_).weaken
      fun _ f _ hf => ⟨hf.sound, fun _ => hf.text, fun _ h => by cases h⟩
    exact (hargs a ha).mono hgrows
  by_cases hquiet : V.strict ∧ e.unparen.isIdent ∧ e.IsValue env.facts
  · obtain ⟨hstrict, hident, hvalue⟩ := hquiet
    refine (hbyForm.and (quietForm hself henv (h.mono hgrows) hstrict hident hvalue desired)).weaken
      fun _ f _ hf => ⟨hf.1, fun h => absurd h hbare, fun _ _ _ => hf.2⟩
  · exact hbyForm.weaken fun _ f _ hf =>
      ⟨hf, fun h => absurd h hbare, fun h₁ h₂ h₃ => absurd ⟨h₁, h₂, h₃⟩ hquiet⟩

end

end Delivers

/-- **Lowering keeps to the vocabulary**, however deep it goes. -/
theorem lowers_within (n : Nat) : Lowers V (Lower.within n) := by
  induction n with
  | zero => exact fun _ _ _ _ _ => Delivers.fail rfl
  | succ n ih => exact fun henv _ _ h desired => Delivers.expression ih henv h desired

namespace Delivers

variable (henv : env.Plain V)
include henv

/-! ### Entry points -/

/-- Every lowering of a settled expression is sound. -/
theorem lower (h : e.Settles V env s) (desired : Option GoType) :
    Delivers V env s (GoLua.lower e desired) (IsSound V) :=
  Lowers.sound (lowers_within _) henv h desired

/-- So is every conversion that is asked for from outside. -/
theorem lowerConversion (h : e.Settles V env s) {target : GoType} (htarget : target.Spelled V) :
    Delivers V env s (GoLua.lowerConversion e target) (IsSound V) :=
  conversion (lowers_within _) henv h htarget

/-- So is every implicit conversion. -/
theorem lowerImplicit (h : e.Settles V env s) (target : GoType) :
    Delivers V env s (GoLua.lowerImplicit e target) (IsSound V) :=
  implicit (lowers_within _) henv h target

/-- So is every implicit copy. -/
theorem lowerImplicitCopy (h : e.Settles V env s) {target : GoType} (htarget : target.Spelled V) :
    Delivers V env s (GoLua.lowerImplicitCopy e target) (IsSound V) :=
  implicitCopy (lowers_within _) henv h htarget

end Delivers

end

end GoLua
