import GoLua.Proofs.Nesting.Agree
import GoLua.Proofs.Nesting.Counted
import GoLua.Proofs.Run.Zero
import GoLua.Proofs.SelectionPaths
import GoLua.Proofs.SourceOrder.Argument
import GoLua.Proofs.SourceOrder.Literal

/-!
# Rules that agree

The rules of lowering ask for the lowering of parts, and do the rest by operations. So where two lowerings
agree on the parts of an expression, a rule with the one and the rule with the other agree: templates
(`agree_renderAs`), implicit conversions (`agree_implicit`), operators (`agree_binary`), places and their
addresses (`agree_index`, `agree_addressOf`), builtins (`agree_builtin`), methods of the host
(`agree_hostMethod`) and literals (`agree_composite`).

The rules that make new nodes around parts and have them lowered are not among them. For these it matters how
many levels the new nodes take.
-/

namespace GoLua

/-! ### Looking -/

namespace Lower

theorem still_config {α : Type} (f : Config → α) : Still (config f) :=
  .view _

theorem still_constantOf (e : Expr) : Still (constantOf e) :=
  .view _

theorem still_intConstantOf (e : Expr) : Still (intConstantOf e) :=
  (still_constantOf e).map _

theorem still_isConstant (e : Expr) : Still (isConstant e) :=
  (still_constantOf e).map _

theorem still_objectOf (e : Expr) : Still (objectOf e) :=
  Still.bind (.view _) fun _ => .orFail _ _

theorem still_selectionOf (e : Expr) : Still (selectionOf e) :=
  .view _

theorem still_isSuspending (e : Expr) : Still (isSuspending e) :=
  .view _

theorem still_isNil (e : Expr) : Still (isNil e) := by
  unfold isNil
  split
  · exact Still.bind (.view _) fun _ => .pure _
  · exact .pure _

theorem still_isRepeatableExpr (e : Expr) : Still (isRepeatableExpr e) := by
  unfold isRepeatableExpr
  split
  · exact .pure _
  · exact still_isConstant e

theorem still_nameConstant? (e : Expr) : Still (nameConstant? e) :=
  (still_constantOf e).map _

theorem still_denotesType (e : Expr) : Still (denotesType e) :=
  Still.bind (.view _) fun _ => .pure _

/-- A type expression is told by its form and by what its name is bound to. -/
theorem still_isTypeExpr (e : Expr) : Still (isTypeExpr e) := by
  unfold isTypeExpr
  split
  · exact .pure _
  · exact still_denotesType _
  · refine (still_selectionOf _).bind fun selection => ?_
    split
    · exact still_denotesType _
    · exact .pure _
  · exact .pure _

theorem still_signatureOf (e : Expr) : Still (signatureOf e) := by
  refine (still_typeOf e).bind fun type => ?_
  split
  · exact .pure _
  · exact .fail _

/-- A path is found by the types alone. -/
theorem still_pathFrom (type : GoType) (index : List Nat) (span : Span) :
    Still (pathFrom type index span) :=
  Still.bind (.view _) fun _ => .ofExcept _

/-- The type that an argument is passed as, from the signature or from the argument itself. -/
theorem still_argType (sig : Signature) (packed : Option GoType) (arg : Expr) (i : Nat) :
    Still (argType sig packed arg i) := by
  unfold argType
  split
  · split <;> exact .pure _
  · exact .pure _
  · exact still_typeOf arg

end Lower

namespace Ground

open Lower Template

variable {G : Ground} {self other : Lowering} {e left right base func : Expr} {args : List Expr}

/-! ### Templates -/

/-- Two lowerings agree on what is lowered of an operand. -/
def SameOperand (G : Ground) (self other : Lowering) : Operand → Prop
  | .expr e => G.Same self other e
  | _ => True

section

variable {operands : List Operand} {o : Operand}

/-- Slots hold the operands, so the lowerings agree on what they hold. -/
theorem agreeBy_slots (h : ∀ o ∈ operands, G.SameOperand self other o) (ps : List Piece) :
    G.AgreeBy (∀ s ∈ ·, G.SameOperand self other s.operand) (operands.zipIdx.mapM (slotFor ps))
      (operands.zipIdx.mapM (slotFor ps)) := by
  -- Whether an operand may be repeated is looked up, without lowering it.
  refine agreeBy_mapM fun p hp => .look ?_ fun repeatable => .pure (h p.1 (List.fst_mem_of_mem_zipIdx hp))
  cases p.1 with
  | expr e => exact still_isRepeatableExpr e
  | _ => exact .pure _

/-- A slot that is used twice lowers its operand once, and then mints a name. -/
theorem agree_bindSlot {s : Slot} (h : G.SameOperand self other s.operand) :
    G.Agree (bindSlot self s) (bindSlot other s) := by
  obtain ⟨o, uses, repeatable⟩ := s
  refine .ite (fun _ => .pure trivial) fun _ => ?_
  -- Only an expression is lowered; a text that is there already is bound as it is.
  cases o with
  | expr e => exact (h none).bind fun _ _ => (AgreeBy.newLocal "_t").bind fun _ _ => .pure trivial
  | lowered f => exact (AgreeBy.newLocal "_t").bind fun _ _ => .pure trivial
  | _ => exact .pure trivial

/-- An operand is the name that it is bound to, or what is lowered of it. -/
theorem agree_operandText (h : G.SameOperand self other o) (pattern : String) (tag : Tag)
    (bound : Option String) :
    G.Agree (operandText self pattern tag o bound) (operandText other pattern tag o bound) := by
  cases bound with
  | some name => exact .pure trivial
  | none =>
    cases o with
    | expr e => exact (h none).bind fun _ _ => .pure trivial
    | lowered f => exact .pure trivial
    | _ => exact .fail _

/-- A constant that may be folded is not lowered at all. -/
theorem agree_expressionText (h : G.Same self other e) (folded : Bool) :
    G.Agree (expressionText self folded e) (expressionText other folded e) := by
  refine .look (still_constantOf e) fun c => ?_
  cases c with
  | none => exact (h none).bind fun _ _ => .pure trivial
  | some c =>
    dsimp only
    split
    · exact .pure trivial
    · exact (h none).bind fun _ _ => .pure trivial

/-- The halves of a constant are computed, those of anything else are taken by shifts. -/
theorem agree_halfText (h : G.SameOperand self other o) (pattern : String) (tag : Tag)
    (bound : Option String) :
    G.Agree (halfText self pattern tag o bound) (halfText other pattern tag o bound) := by
  have hbase := agree_operandText h pattern tag bound
  cases o with
  | expr e =>
    refine .look ((still_typeOf e).map _) fun signed => .look (still_intConstantOf e) fun n => ?_
    cases n with
    | some n => exact .pure trivial
    | none => exact hbase.bind fun _ _ => .pure trivial
  | _ => exact hbase.bind fun _ _ => .pure trivial

/-- The parts of a constant are computed, those of anything else are fields of a pair. -/
theorem agree_partText (h : G.SameOperand self other o) (pattern : String) (tag : Tag)
    (bound : Option String) :
    G.Agree (partText self pattern tag o bound) (partText other pattern tag o bound) := by
  have hbase := agree_operandText h pattern tag bound
  cases o with
  | expr e =>
    refine .look (still_constantOf e) fun c => ?_
    dsimp only
    generalize (c.bind fun c => if tag == .realPart then c.re? else c.im?) = part
    cases part with
    | some x => exact .pure trivial
    | none => exact hbase.bind fun _ _ => .pure trivial
  | _ => exact hbase.bind fun _ _ => .pure trivial

/-- A placeholder is rendered by its tag: only some tags lower an operand. -/
theorem agree_placeholderText (h : G.SameOperand self other o) (pattern : String) (tag : Tag)
    (bound : Option String) :
    G.Agree (placeholderText self pattern tag o bound)
      (placeholderText other pattern tag o bound) := by
  cases tag with
  -- These tags take a text, a number or an operator, and refuse an expression.
  | text | integer | operator =>
    cases o <;> first | exact .pure trivial | exact .fail _
  | expression | folded =>
    cases bound with
    | some name => exact .pure trivial
    | none =>
      cases o with
      | expr e =>
        unfold placeholderText
        exact agree_expressionText h _
      | lowered f => exact .pure trivial
      | _ => exact .fail _
  | high | low => exact agree_halfText h pattern _ bound
  | realPart | imagPart => exact agree_partText h pattern _ bound

/-- A piece of text is itself, and a placeholder is one of the operands. -/
theorem agree_pieceText {named : List (Operand × Option String)}
    (h : ∀ p ∈ named, G.SameOperand self other p.1) (pattern : String) (piece : Piece) :
    G.Agree (pieceText self pattern named piece) (pieceText other pattern named piece) := by
  cases piece with
  | literal | percent => exact .pure trivial
  | placeholder digits index tag =>
    simp only [pieceText]
    cases hnamed : named[index]? with
    | none => exact .fail _
    | some p => exact agree_placeholderText (h p (List.mem_of_getElem? hnamed)) pattern tag p.2

/-- **Templates.** -/
theorem agree_renderAs (parens : Bool) (pattern : String)
    (h : ∀ o ∈ operands, G.SameOperand self other o) :
    G.Agree (renderAs parens self pattern operands) (renderAs parens other pattern operands) := by
  unfold renderAs
  cases parse operands.length pattern with
  | error fault => exact .fail _
  | ok ps =>
    -- The three passes of a template: slots, bindings, pieces. Bindings are a prefix of the slots.
    refine (agreeBy_slots h ps).bind fun slots hslots => ?_
    have hbinding : ∀ s ∈ bindingRange slots, G.SameOperand self other s.operand := fun s hs => by
      obtain ⟨rest, hall, -⟩ := exists_bindingRange_append slots
      exact hslots s (hall ▸ List.mem_append_left rest hs)
    refine (agree_mapM fun s hs => agree_bindSlot (hbinding s hs)).bind fun bound _ => ?_
    have hnamed : ∀ p ∈ withNames operands bound, G.SameOperand self other p.1 := fun p hp => by
      obtain ⟨⟨o, i⟩, hmem, rfl⟩ := List.mem_map.mp hp
      exact h o (List.fst_mem_of_mem_zipIdx hmem)
    refine (agree_mapM fun piece _ => agree_pieceText hnamed pattern piece).bind fun texts _ => ?_
    cases bound.filterMap id <;> exact .pure trivial

/-- The most frequent templates have one expression for an operand. -/
theorem agree_renderOne (h : G.Same self other e) (parens : Bool) (pattern : String) :
    G.Agree (renderAs parens self pattern [.expr e]) (renderAs parens other pattern [.expr e]) :=
  agree_renderAs parens pattern (List.forall_mem_singleton.mpr h)

/-- The same with two expressions. -/
theorem agree_renderTwo (hleft : G.Same self other left) (hright : G.Same self other right)
    (parens : Bool) (pattern : String) :
    G.Agree (renderAs parens self pattern [.expr left, .expr right])
      (renderAs parens other pattern [.expr left, .expr right]) :=
  agree_renderAs parens pattern (List.forall_mem_cons.mpr ⟨hleft, List.forall_mem_singleton.mpr hright⟩)

end

/-! ### Names and values for the host -/

/-- An identifier has no parts. -/
theorem agree_identifier (e : Expr) (name : String) :
    G.Agree (identifier e name) (identifier e name) :=
  .of_still (still_identifier e name)

theorem agree_wrappedHostObject (h : G.Same self other e) :
    G.Agree (wrappedHostObject self e) (wrappedHostObject other e) :=
  agree_renderOne h false (Lua.Support.hostObjectPtr ++ "(%e)")

/-- What is passed out to the host is lowered once, and wrapped where its type needs it. -/
theorem agree_externalized (h : G.Same self other e) :
    G.Agree (externalized self e) (externalized other e) := by
  refine .look (still_typeOf e) fun type => .look (still_config _) fun hostObject => ?_
  exact .ite (fun _ => h none) fun _ => agree_renderOne h false _

theorem agree_externalizedArgs (h : ∀ a ∈ args, G.Same self other a) :
    G.Agree (externalizedArgs self args) (externalizedArgs other args) :=
  (agree_mapM fun a ha => (agree_externalized (h a ha)).map Fragment.text).bind fun _ _ => .pure trivial

/-! ### Conversions -/

/-- An implicit conversion lowers its expression once, whatever it wraps it in. -/
theorem agree_implicit (h : G.Same self other e) (desired : GoType) :
    G.Agree (implicit self e desired) (implicit other e desired) := by
  refine .look (still_typeOf e) fun type => .ite (fun _ => h none) fun _ => ?_
  refine .ite (fun _ => .look (still_zeroFor e desired) fun _ => .pure trivial) fun _ => ?_
  refine .ite (fun _ => ?_) fun _ => h (some desired)
  refine .look (still_config _) fun hostObject => .ite (fun _ => agree_wrappedHostObject h) fun _ => ?_
  refine .look (still_config _) fun boxed => .ite (fun _ => agree_renderOne h false _) fun _ => ?_
  exact .ite (fun _ => agree_renderOne h false _) fun _ => h (some desired)

theorem agree_implicitCopy (h : G.Same self other e) (desired : GoType) :
    G.Agree (implicitCopy self e desired) (implicitCopy other e desired) :=
  .ite (fun _ => agree_renderOne h false _) fun _ => agree_implicit h desired

/-- An integer is cut unless it fits, a float is cut towards zero, and an unsafe pointer stays as it
is. -/
theorem agree_toIntegerKind (h : G.Same self other e) (source target : GoType) (kind : Kind) :
    G.Agree (toIntegerKind self e source target kind) (toIntegerKind other e source target kind) := by
  unfold toIntegerKind
  cases source.basicKind? with
  | none => exact .fail _
  | some inner =>
    refine .ite (fun _ => (h none).bind fun _ _ => .pure trivial) fun _ => ?_
    refine .ite (fun _ => (agree_renderOne h true _).bind fun _ _ => .pure trivial) fun _ => ?_
    exact .ite (fun _ => h none) fun _ => .fail _

/-- An integer becomes a float by an addition, and a float stays. -/
theorem agree_toFloatKind (h : G.Same self other e) (source target : GoType) :
    G.Agree (toFloatKind self e source target) (toFloatKind other e source target) := by
  unfold toFloatKind
  cases source.basicKind? with
  | none => exact .fail _
  | some inner =>
    refine .ite (fun _ => agree_renderOne h true _) fun _ => ?_
    exact .ite (fun _ => h none) fun _ => .fail _

/-- A string is made of one code point, of another string, of bytes or of code points. -/
theorem agree_toStringKind (h : G.Same self other e) (source target : GoType) :
    G.Agree (toStringKind self e source target) (toStringKind other e source target) := by
  unfold toStringKind
  cases source.underlying with
  | basic inner =>
    refine .ite (fun _ => agree_renderOne h false _) fun _ => ?_
    exact .ite (fun _ => h none) fun _ => .fail _
  | slice => exact agree_renderOne h false _
  | _ => exact .fail _

/-- A conversion to a kind has one rule for each family of kinds. -/
theorem agree_toKind (h : G.Same self other e) (source target : GoType) (kind : Kind) :
    G.Agree (toKind self e source target kind) (toKind other e source target kind) := by
  refine .ite (fun _ => agree_toIntegerKind h source target kind) fun _ => ?_
  refine .ite (fun _ => agree_toFloatKind h source target) fun _ => .ite (fun _ => ?_) fun _ => ?_
  · exact .ite (fun _ => h none) fun _ => .fail _
  refine .ite (fun _ => agree_toStringKind h source target) fun _ => .ite (fun _ => h none) fun _ => ?_
  exact .ite (fun _ => h none) fun _ => .fail _

/-- Only strings are converted to slices. -/
theorem agree_toSlice (h : G.Same self other e) (source target : GoType) :
    G.Agree (toSlice self e source target) (toSlice other e source target) := by
  refine .ite (fun _ => agree_renderOne h false _) fun _ => ?_
  cases source.underlying with
  | slice => exact h none
  | _ => exact .fail _

/-- An assertion lowers its operand; the type that it asserts is looked up. -/
theorem agree_typeAssertion (h : G.Same self other base) (e : Expr) (asserted : Option Expr) :
    G.Agree (typeAssertion self e base asserted) (typeAssertion other e base asserted) := by
  cases asserted with
  | none => exact h none
  | some asserted =>
    exact .look (still_typeOf asserted) fun _ => .look (still_typeOf e) fun _ => agree_renderOne h false _

/-! ### Indexing and slicing -/

/-- A key is converted to the key type, and turned into a text unless it is one. -/
theorem agree_mapKey (h : G.Same self other e) (keyType : GoType) :
    G.Agree (mapKey self e keyType) (mapKey other e keyType) := by
  refine .look (still_typeOf e) fun type => .look (still_config _) fun hostObject => ?_
  refine .ite (fun _ => (AgreeBy.reportError _ _).bind fun _ _ => ?_) fun _ => ?_
  all_goals exact (agree_implicit h keyType).bind fun _ _ => .pure trivial

/-- An element of a map gives the zero value where its key is missing. -/
theorem agree_mapElement {place : Expr} (hbase : G.Same self other base)
    (h : G.Same self other place) (e : Expr) (key elem : GoType) :
    G.Agree (mapElement self e base place key elem) (mapElement other e base place key elem) := by
  refine (agree_mapKey h key).bind fun keyText _ => .look (still_zeroFor e elem) fun zero => ?_
  refine .look (still_typeOf e) fun type => agree_renderAs false _ ?_
  exact List.forall_mem_cons.mpr ⟨hbase, by simp [SameOperand]⟩

/-- An index has one rule for each kind of base. -/
theorem agree_index {place : Expr} (hbase : G.Same self other base) (h : G.Same self other place)
    (e : Expr) : G.Agree (index self e base place) (index other e base place) := by
  refine .look (still_typeOf base) fun baseType => .look (still_isConstant place) fun constant => ?_
  split
  · exact .ite (fun _ => agree_renderTwo hbase h false _) fun _ => agree_renderTwo hbase h false _
  split
  · exact agree_renderTwo hbase h false _
  · exact agree_mapElement hbase h e _ _
  · exact .ite (fun _ => agree_renderTwo hbase h false _) fun _ => .unsupported
  · exact .unsupported

/-- A bound that is missing is no operand, so there are more or fewer operands. -/
theorem agree_slice {low high max : Option Expr} (hbase : G.Same self other base)
    (h : ∀ c ∈ low.toList ++ high.toList ++ max.toList, G.Same self other c) (e : Expr) :
    G.Agree (slice self e base low high max) (slice other e base low high max) := by
  refine .look (still_typeOf base) fun baseType => ?_
  split
  · exact .unsupported
  · refine agree_renderAs false _ fun o ho => ?_
    obtain ⟨c, hc, rfl⟩ := List.mem_map.mp ho
    rw [List.cons_append, List.mem_cons, ← List.append_assoc] at hc
    rcases hc with rfl | hc
    · exact hbase
    · exact h c hc

/-! ### Operators -/

/-- A connective puts its right operand behind a guard, if it leaves statements. -/
theorem agree_logical (hleft : G.Same self other left) (hright : G.Same self other right) (e : Expr)
    (op : BinaryOp) : G.Agree (logical self e op left right) (logical other e op left right) := by
  refine (hleft none).bind fun condition _ => .look still_pendingCount fun mark => ?_
  refine (AgreeBy.inRightOf e.id (hright none)).bind fun value _ => ?_
  refine (AgreeBy.splitPending mark).bind fun body _ => .look (still_isSuspending right) fun suspends => ?_
  refine .ite (fun _ => .pure trivial) fun _ => (AgreeBy.newTemporary "_v").bind fun _ _ => ?_
  exact (AgreeBy.leave _ _ _).bind fun _ _ => .pure trivial

/-- A comparison with nil needs the other side only. -/
theorem agree_equalsNil {value : Expr} (h : G.Same self other value) (e : Expr) (negated : Bool)
    (type : GoType) :
    G.Agree (equalsNil self e negated value type) (equalsNil other e negated value type) := by
  refine .look (still_config _) fun hostObject => .ite (fun _ => agree_renderOne h true _) fun _ => ?_
  split
  iterate 3 · exact agree_renderOne h true _
  iterate 4 · exact (agree_renderOne h false _).bind fun _ _ => .pure trivial
  · exact .unsupported

/-- Of two values one is an interface value; the other becomes one first. -/
theorem agree_interfaceEquality (hleft : G.Same self other left) (hright : G.Same self other right)
    (leftType rightType : GoType) :
    G.Agree (interfaceEquality self left right leftType rightType)
      (interfaceEquality other left right leftType rightType) := by
  refine .ite (fun _ => ?_) fun _ => .ite (fun _ => ?_) fun _ => agree_renderTwo hleft hright false _
  · refine (agree_implicit hright leftType).bind fun boxed _ => agree_renderAs false _ ?_
    exact List.forall_mem_cons.mpr ⟨hleft, by simp [SameOperand]⟩
  · refine (agree_implicit hleft rightType).bind fun boxed _ => agree_renderAs false _ ?_
    exact List.forall_mem_cons.mpr ⟨trivial, List.forall_mem_singleton.mpr hright⟩

/-- A value compared with a constant truth value is the value or its negation. -/
theorem agree_comparedWith (hleft : G.Same self other left) (hright : G.Same self other right)
    (negated : Bool) (type : GoType) (truth? : Option Bool) :
    G.Agree (comparedWith self negated left right type truth?)
      (comparedWith other negated left right type truth?) := by
  cases truth? with
  | some truth => exact (hleft none).bind fun _ _ => .pure trivial
  | none =>
    exact .ite (fun _ => agree_renderTwo hleft hright true _) fun _ => agree_renderTwo hleft hright true _

/-- Values that the target language compares as they are. -/
theorem agree_plainEquality (hleft : G.Same self other left) (hright : G.Same self other right)
    (negated : Bool) (type : GoType) :
    G.Agree (plainEquality self negated left right type)
      (plainEquality other negated left right type) := by
  refine .ite (fun _ => ?_) fun _ => agree_comparedWith hleft hright negated type none
  exact .look (still_constantOf right) fun c => agree_comparedWith hleft hright negated type _

/-- Equality by the types of both sides. -/
theorem agree_equalityOf (hleft : G.Same self other left) (hright : G.Same self other right)
    (e : Expr) (negated : Bool) :
    G.Agree (equalityOf self e negated left right) (equalityOf other e negated left right) := by
  refine .look (still_typeOf left) fun leftType => .look (still_typeOf right) fun rightType => ?_
  refine .look (still_isNil right) fun isNil => ?_
  refine .ite (fun _ => agree_equalsNil hleft e negated _) fun _ => ?_
  refine .ite (fun _ => ?_) fun _ => .ite (fun _ => ?_) fun _ => agree_plainEquality hleft hright _ _
  · exact (agree_interfaceEquality hleft hright _ _).bind fun _ _ => .pure trivial
  · exact (agree_renderTwo hleft hright false _).bind fun _ _ => .pure trivial

/-- An equality has `nil` on one side, or compares two values. -/
theorem agree_equality (hleft : G.Same self other left) (hright : G.Same self other right)
    (e : Expr) (negated : Bool) :
    G.Agree (equality self e negated left right) (equality other e negated left right) := by
  refine .look (still_isNil left) fun leftNil => .look (still_isNil right) fun rightNil => ?_
  exact .ite (fun _ => agree_equalityOf hright hleft e negated) fun _ =>
    agree_equalityOf hleft hright e negated

/-- An operator between two operands, whose token is written as a third one. -/
theorem agree_renderOperator (hleft : G.Same self other left) (hright : G.Same self other right)
    (op : BinaryOp) (parens : Bool) (pattern : String) :
    G.Agree (renderAs parens self pattern [.expr left, .operator op, .expr right])
      (renderAs parens other pattern [.expr left, .operator op, .expr right]) :=
  agree_renderAs parens pattern
    (List.forall_mem_cons.mpr
      ⟨hleft, List.forall_mem_cons.mpr ⟨trivial, List.forall_mem_singleton.mpr hright⟩⟩)

/-- An operator between both operands, each of them once. -/
theorem agree_plainOperator (hleft : G.Same self other left) (hright : G.Same self other right)
    (op : BinaryOp) : G.Agree (plainOperator self op left right) (plainOperator other op left right) :=
  agree_renderOperator hleft hright op true "%e %t %e"

/-- A helper applied to both operands. -/
theorem agree_binaryCall (hleft : G.Same self other left) (hright : G.Same self other right)
    (helper : String) :
    G.Agree (binaryCall self helper left right) (binaryCall other helper left right) :=
  agree_renderTwo hleft hright false _

/-- Sums and differences of complex numbers are taken by parts, products by a template, and
quotients by a helper. -/
theorem agree_complexArithmetic (hleft : G.Same self other left) (hright : G.Same self other right)
    (e : Expr) (op : BinaryOp) :
    G.Agree (complexArithmetic self e op left right) (complexArithmetic other e op left right) := by
  have hparts : ∀ o ∈ [Operand.expr left, .expr right, .operator op], G.SameOperand self other o :=
    List.forall_mem_cons.mpr ⟨hleft, List.forall_mem_cons.mpr ⟨hright, by simp [SameOperand]⟩⟩
  unfold complexArithmetic
  split
  -- Sum and difference, then product, then quotient; other operators are refused.
  · exact agree_renderAs false _ hparts
  · exact agree_renderAs false _ hparts
  · exact agree_renderTwo hleft hright false _
  · exact agree_binaryCall hleft hright _
  · exact .unsupported

/-- A shift to the left cuts what it makes. -/
theorem agree_shiftLeft (hleft : G.Same self other left) (hright : G.Same self other right)
    (kind : Kind) : G.Agree (shiftLeft self left right kind) (shiftLeft other left right kind) := by
  -- Where the count is a constant that shifts all bits out, only the left operand may still run.
  refine .look (still_intConstantOf right) fun count => .ite (fun _ => ?_) fun _ => ?_
  · refine .look (still_isRepeatableExpr left) fun repeatable => ?_
    exact .ite (fun _ => .pure trivial) fun _ => agree_renderOne hleft true _
  · exact (agree_renderTwo hleft hright true _).bind fun _ _ => .pure trivial

/-- Integers: each operator by its own template, cut afterwards where it can leave the range. -/
theorem agree_integerArithmetic (hleft : G.Same self other left) (hright : G.Same self other right)
    (e : Expr) (op : BinaryOp) (kind : Kind) :
    G.Agree (integerArithmetic self e op left right kind)
      (integerArithmetic other e op left right kind) := by
  unfold integerArithmetic
  split
  -- Sum, difference and product are cut to the width.
  iterate 3 · exact (agree_plainOperator hleft hright _).bind fun _ _ => .pure trivial
  -- A quotient is cut too: the least value divided by minus one leaves the range.
  · exact (agree_binaryCall hleft hright _).bind fun _ _ => .pure trivial
  · exact agree_binaryCall hleft hright _
  · exact agree_shiftLeft hleft hright kind
  -- A shift to the right moves the sign in, unless the type has none.
  · exact .ite (fun _ => agree_renderTwo hleft hright true _) fun _ => agree_renderTwo hleft hright false _
  -- Bits of both operands stay in range.
  iterate 3 · exact agree_plainOperator hleft hright _
  · exact agree_renderTwo hleft hright true _
  · exact .unsupported

/-- Arithmetic by the family of the type: strings, complex numbers, floats, integers. -/
theorem agree_arithmetic (hleft : G.Same self other left) (hright : G.Same self other right)
    (e : Expr) (op : BinaryOp) :
    G.Agree (arithmetic self e op left right) (arithmetic other e op left right) := by
  refine .look (still_typeOf e) fun type => ?_
  split
  · exact .unsupported
  refine .ite (fun _ => .ite (fun _ => agree_renderTwo hleft hright true _) fun _ => .unsupported)
    fun _ => ?_
  refine .ite (fun _ => agree_complexArithmetic hleft hright e op) fun _ => .ite (fun _ => ?_) fun _ => ?_
  · cases op with
    | add | sub | mul | quo => exact agree_plainOperator hleft hright _
    | _ => exact .unsupported
  · exact .ite (fun _ => agree_integerArithmetic hleft hright e op _) fun _ => .unsupported

/-- A binary operator is a connective, an equality, an order or arithmetic. -/
theorem agree_binary (hleft : G.Same self other left) (hright : G.Same self other right) (e : Expr)
    (op : BinaryOp) : G.Agree (binary self e op left right) (binary other e op left right) := by
  cases op with
  | logicalAnd | logicalOr => exact agree_logical hleft hright e _
  | eql | neq => exact agree_equality hleft hright e _
  | lss | leq | gtr | geq =>
    exact .look (still_typeOf left) fun type => agree_renderOperator hleft hright _ true _
  | _ => exact agree_arithmetic hleft hright e _

/-- The operators on one operand that are neither addresses nor receives. -/
theorem agree_unaryOperator (h : G.Same self other left) (e : Expr) (op : UnaryOp) :
    G.Agree (unaryOperator self e left op) (unaryOperator other e left op) := by
  refine .look (still_typeOf left) fun type => ?_
  split
  · exact .unsupported
  cases op with
  | neg =>
    refine .ite (fun _ => agree_renderOne h false _) fun _ => ?_
    exact (agree_renderOne h true _).bind fun _ _ => .pure trivial
  | bitNot => exact (agree_renderOne h true _).bind fun _ _ => .pure trivial
  | not => exact agree_renderOne h true _
  | _ => exact h none

/-! ### Addresses and pointers -/

/-- The accessor of a variable is kept in its box and depends on the name only. -/
theorem agree_variableAccessor (obj : Object) :
    G.Agree (variableAccessor obj) (variableAccessor obj) := by
  refine .ite (fun _ => .of_still ((still_config _).map _)) fun _ => .look (still_config _) fun name => ?_
  exact (AgreeBy.accessorBox _).bind fun _ _ => .pure trivial

/-- The accessor of a field lowers the base once. -/
theorem agree_fieldAccessor (h : G.Same self other base) (path : FieldPath) :
    G.Agree (fieldAccessor self base path) (fieldAccessor other base path) := by
  unfold fieldAccessor
  exact agree_renderOne h false _

/-- An address is of a literal, of a variable, of a field or of an element. -/
theorem agree_placeAddress {target : Expr} (h : G.Same self other target)
    (hparts : ∀ c ∈ target.parts, G.Same self other c) (e : Expr) (type : GoType) :
    G.Agree (placeAddress self e target type) (placeAddress other e target type) := by
  unfold placeAddress
  split
  -- A literal is allocated anew.
  · exact agree_renderOne h false _
  · exact .look (still_objectOf _) fun obj => agree_variableAccessor obj
  · next base sel =>
    refine .look (still_selectionOf _) fun selection => ?_
    split
    -- A qualified name is a variable of its package.
    · exact .look (still_objectOf _) fun obj => agree_variableAccessor obj
    · refine .ite (fun _ => .look (still_pathFrom _ _ _) fun path => ?_) fun _ => .unsupported
      exact agree_fieldAccessor (hparts base (by simp [Expr.parts])) path
  · next base place =>
    -- An element is addressed through its container and its place.
    exact agree_renderTwo (hparts base (by simp [Expr.parts])) (hparts place (by simp [Expr.parts])) false _
  -- The address of what a pointer points to is the pointer.
  · next inner => exact hparts inner (by simp [Expr.parts]) none
  · exact .unsupported

/-- The rule of addresses looks into its operand, brackets aside. -/
theorem agree_addressOf {operand : Expr} (h : G.Same self other operand)
    (hcore : G.Same self other operand.unparen)
    (hparts : ∀ c ∈ operand.unparen.parts, G.Same self other c) (e : Expr) :
    G.Agree (addressOf self e operand) (addressOf other e operand) := by
  refine .look (still_typeOf e) fun type => .look (still_config _) fun hostObject => ?_
  refine .ite (fun _ => agree_renderOne h false _) fun _ => .look (still_typeOf operand) fun place => ?_
  exact .ite (fun _ => h none) fun _ => agree_placeAddress hcore hparts e type

/-- A host object is wrapped, an aggregate is its own pointee, and any other pointee is read through
its pointer. -/
theorem agree_dereference {operand : Expr} (h : G.Same self other operand) (e : Expr) :
    G.Agree (dereference self e operand) (dereference other e operand) := by
  refine .look (still_typeOf operand) fun pointer => .look (still_config _) fun hostObject => ?_
  refine .ite (fun _ => agree_wrappedHostObject h) fun _ => .look (still_typeOf e) fun type => ?_
  exact .ite (fun _ => h none) fun _ => agree_renderOne h false _

/-! ### Predeclared functions -/

section

variable (h : ∀ a ∈ args, G.Same self other a)
include h

/-- An argument of a builtin is one of the arguments, or is missing. -/
theorem agreeBy_builtinArg (call : Expr) (name : String) (i : Nat) :
    G.AgreeBy (G.Same self other) (builtinArg call name args i) (builtinArg call name args i) := by
  unfold builtinArg
  split
  · next a ha => exact .pure (h a (List.mem_of_getElem? ha))
  · exact .unsupported

/-- Length and capacity are lowered in order. -/
theorem agree_makeSlice (call : Expr) (elem : GoType) :
    G.Agree (makeSlice self call args elem) (makeSlice other call args elem) := by
  refine .look (still_zeroFor call elem) fun zero => (agreeBy_builtinArg h call _ 1).bind fun len hlen => ?_
  dsimp only
  split
  · next cap hcap => exact agree_renderTwo hlen (h cap (List.mem_of_getElem? hcap)) false _
  · exact agree_renderOne hlen false _

/-- A map is made empty; its size is checked unless it is constant. -/
theorem agree_makeMap (key elem : GoType) :
    G.Agree (makeMap self args key elem) (makeMap other args key elem) := by
  unfold makeMap
  dsimp only
  split
  · exact .pure trivial
  · next size hsize =>
    refine .look (still_isConstant size) fun constant => .ite (fun _ => .pure trivial) fun _ => ?_
    exact agree_renderOne (h size (List.mem_of_getElem? hsize)) true _

/-- Without a size a channel has none. -/
theorem agree_makeChan (elem : GoType) :
    G.Agree (makeChan self args elem) (makeChan other args elem) := by
  unfold makeChan
  split
  · next size hsize => exact agree_renderOne (h size (List.mem_of_getElem? hsize)) false _
  · exact .pure trivial

/-- What `make` makes is decided by the type. -/
theorem agree_make (call : Expr) : G.Agree (make self call args) (make other call args) := by
  refine (agreeBy_builtinArg h call _ 0).bind fun made _ => .look (still_typeOf made) fun type => ?_
  split
  · exact agree_makeSlice h call _
  · exact agree_makeMap h _ _
  · exact agree_makeChan h _
  · exact .unsupported

/-- The length of an array is known, and its operand is evaluated all the same. -/
theorem agree_len (call : Expr) : G.Agree (len self call args) (len other call args) := by
  refine (agreeBy_builtinArg h call _ 0).bind fun operand hoperand => ?_
  refine .look (still_typeOf operand) fun type => ?_
  split
  · exact agree_renderOne hoperand false _
  split
  · exact .ite (fun _ => agree_renderOne hoperand true _) fun _ => .unsupported
  iterate 3 · exact agree_renderOne hoperand true _
  · exact .unsupported

/-- The capacity of an array is its length. -/
theorem agree_cap (call : Expr) : G.Agree (cap self call args) (cap other call args) := by
  refine (agreeBy_builtinArg h call _ 0).bind fun operand hoperand => ?_
  refine .look (still_typeOf operand) fun type => ?_
  split
  · exact agree_renderOne hoperand false _
  split
  iterate 2 · exact agree_renderOne hoperand false _
  · exact .unsupported

/-- Without further arguments `append` is its slice. -/
theorem agree_append (call : Expr) (ellipsis : Bool) :
    G.Agree (append self call args ellipsis) (append other call args ellipsis) := by
  unfold append
  split
  · exact .unsupported
  · next slice => exact h slice (by simp) none
  · next slice more rest =>
    have hslice := h slice (by simp)
    refine .look (still_typeOf call) fun type => ?_
    split
    -- Either all of another slice, or values that are converted to the element type one by one.
    · refine .ite (fun _ => .look (still_typeOf more) fun _ => ?_) fun _ => ?_
      · exact agree_renderTwo hslice (h more (by simp)) false _
      · refine (hslice none).bind fun first _ => ?_
        refine (agree_mapM fun a ha => agree_implicitCopy (h a (List.mem_cons_of_mem _ ha)) _).bind
          fun values _ => agree_renderAs false _ fun o ho => ?_
        obtain ⟨f, -, rfl⟩ := List.mem_map.mp ho
        trivial
    · exact .unsupported

/-- A key is deleted from its map in the text in which it was put there. -/
theorem agree_delete (call : Expr) : G.Agree (delete self call args) (delete other call args) := by
  refine (agreeBy_builtinArg h call _ 0).bind fun map hmap => ?_
  refine (agreeBy_builtinArg h call _ 1).bind fun key hkey => .look (still_typeOf map) fun type => ?_
  split
  · refine (hmap none).bind fun mapText _ => (agree_mapKey hkey _).bind fun keyText _ => ?_
    exact agree_renderAs false _ (by simp [SameOperand])
  · exact .unsupported

theorem agree_copy (call : Expr) : G.Agree (copy self call args) (copy other call args) := by
  refine (agreeBy_builtinArg h call _ 0).bind fun target htarget => ?_
  refine (agreeBy_builtinArg h call _ 1).bind fun source hsource => ?_
  exact .look (still_typeOf source) fun type => agree_renderTwo htarget hsource false _

/-- Any number of arguments, each lowered once. -/
theorem agree_print (helper : String) :
    G.Agree (print self helper args) (print other helper args) :=
  (agree_mapM fun a ha => (h a ha none).map Fragment.text).bind fun _ _ => .pure trivial

/-- A complex number is made of two floats. -/
theorem agree_complexOf (call : Expr) :
    G.Agree (complexOf self call args) (complexOf other call args) := by
  refine (agreeBy_builtinArg h call _ 0).bind fun re hre => ?_
  refine (agreeBy_builtinArg h call _ 1).bind fun im him => (agree_implicit hre _).bind fun _ _ => ?_
  exact (agree_implicit him _).bind fun _ _ => .pure trivial

/-- A builtin by its name. -/
theorem agree_builtin (call : Expr) (name : String) (ellipsis : Bool) :
    G.Agree (builtin self call name args ellipsis) (builtin other call name args ellipsis) := by
  -- Four of the builtins are a single template over their first argument.
  have hone (pattern : String) : G.Agree
      (builtinArg call name args 0 >>= fun a => render self pattern [.expr a])
      (builtinArg call name args 0 >>= fun a => render other pattern [.expr a]) :=
    (agreeBy_builtinArg h call name 0).bind fun a ha => agree_renderOne ha false pattern
  unfold builtin
  split
  · -- `new` takes a type, so it asks for a zero value and lowers nothing.
    refine .look (still_typeOf call) fun type => ?_
    split
    · exact .unsupported
    · exact .look (still_zeroFor call _) fun zero => .pure trivial
  · exact agree_make h call
  · exact agree_len h call
  · exact agree_cap h call
  · refine (agreeBy_builtinArg h call _ 0).bind fun a ha => ?_
    exact (agree_implicit ha _).bind fun _ _ => .pure trivial
  · exact agree_append h call ellipsis
  · exact agree_delete h call
  · exact agree_copy h call
  · exact agree_print h _
  · exact agree_print h _
  · exact agree_complexOf h call
  · exact hone _
  · exact hone _
  · exact .pure trivial
  · exact hone _
  · exact .fail _

/-! ### Methods of host objects -/

/-- An argument of a method of the host is one of the arguments, or is missing. -/
theorem agreeBy_hostArg (call : Expr) (i : Nat) :
    G.AgreeBy (G.Same self other) (hostArg call args i) (hostArg call args i) := by
  unfold hostArg
  split
  · next a ha => exact .pure (h a (List.mem_of_getElem? ha))
  · exact .unsupported

omit h in
/-- A property is named by a constant, or by whatever the key is lowered to. -/
theorem agree_property {key : Expr} (hkey : G.Same self other key) (object : String) :
    G.Agree (property self object key) (property other object key) := by
  refine .look (still_nameConstant? key) fun name => ?_
  split
  · exact .pure trivial
  · exact (hkey none).bind fun _ _ => .pure trivial

/-- Arguments are passed out to the host one by one, or unpacked from a slice. -/
theorem agree_passedArgs (call : Expr) (start : Nat) (ellipsis : Bool) :
    G.Agree (passedArgs self call args start ellipsis) (passedArgs other call args start ellipsis) := by
  refine .ite (fun _ => ?_) fun _ => agree_externalizedArgs fun a ha => h a (List.mem_of_mem_drop ha)
  refine (agreeBy_hostArg h call start).bind fun a ha => ?_
  exact (agree_externalized ha).bind fun _ _ => .pure trivial

/-- The name of the method is lowered before the arguments, unless it is constant. -/
theorem agree_callProperty (call : Expr) (recv : Fragment) (ellipsis : Bool) :
    G.Agree (callProperty self call recv args ellipsis)
      (callProperty other call recv args ellipsis) := by
  have hrest := agree_passedArgs h call 1 ellipsis
  refine (agreeBy_hostArg h call 0).bind fun name hname => .look (still_nameConstant? name) fun id => ?_
  split
  · exact hrest.bind fun _ _ => .pure trivial
  · refine (hname none).bind fun key _ => hrest.bind fun rest _ => ?_
    exact agree_renderAs false _ (by simp [SameOperand])

omit h in
/-- An assignment is a statement of its own. -/
theorem agree_assigned (write : HostWrite) (target value : String) :
    G.Agree (assigned write target value) (assigned write target value) :=
  (AgreeBy.leave _ none (some write)).bind fun _ _ => .pure trivial

/-- A method of host objects by its name. -/
theorem agree_hostMethod (call : Expr) (recv : Fragment) (method : String) (ellipsis : Bool) :
    G.Agree (hostMethod self call recv method args ellipsis)
      (hostMethod other call recv method args ellipsis) := by
  have harg := agreeBy_hostArg h call
  unfold hostMethod
  dsimp only
  split
  · -- `Get` and `Set`
    exact (harg 0).bind fun key hkey => (agree_property hkey _).bind fun _ _ => .pure trivial
  · refine (harg 0).bind fun key hkey => (harg 1).bind fun value hvalue => ?_
    refine (agree_property hkey _).bind fun target _ => ?_
    exact (agree_externalized hvalue).bind fun _ _ => agree_assigned _ _ _
  · -- `Delete` and `Length`
    exact (harg 0).bind fun key hkey => (agree_property hkey _).bind fun _ _ => agree_assigned _ _ _
  · exact .pure trivial
  · -- `Index` and `SetIndex`
    refine (harg 0).bind fun index hindex => agree_renderAs false _ ?_
    exact List.forall_mem_cons.mpr ⟨trivial, List.forall_mem_singleton.mpr hindex⟩
  · refine (harg 0).bind fun index hindex => (harg 1).bind fun value hvalue => ?_
    refine (hindex none).bind fun place _ => ?_
    exact (agree_externalized hvalue).bind fun _ _ => agree_assigned _ _ _
  · exact agree_callProperty h call recv ellipsis
  · -- `Invoke`, `New` and `Unsafe`
    exact (agree_passedArgs h call 0 ellipsis).bind fun _ _ => .pure trivial
  · exact (agree_passedArgs h call 0 ellipsis).bind fun _ _ => .pure trivial
  · exact .pure trivial
  · -- Methods that convert look at the configuration, and there are no others.
    split
    · exact .of_still (still_config _)
    · exact .unsupported

end

/-! ### Composite literals -/

section

variable {elements : List Element}

/-- The values of slots are lowered in the order in which they are written, whatever slots they are
for. -/
theorem agree_slotTexts {values : List Slotted} (h : ∀ v ∈ values, G.Same self other v.value) :
    G.Agree (slotTexts self values) (slotTexts other values) := by
  refine (agree_inSequence (fun v hv => (agree_implicitCopy (h v hv) v.type).map Fragment.text)
    "_k" {}).bind fun parts _ => ?_
  exact .ite (fun _ => .pure trivial) fun _ => (agree_move _ _).bind fun _ _ => .pure trivial

/-- What holds of all elements holds of all but the first. -/
theorem same_rest {element : Element}
    (h : ∀ c ∈ (element :: elements).flatMap Element.parts, G.Same self other c) :
    ∀ c ∈ elements.flatMap Element.parts, G.Same self other c := fun c hc =>
  h c (by rw [List.flatMap_cons]; exact List.mem_append_right _ hc)

variable (h : ∀ c ∈ elements.flatMap Element.parts, G.Same self other c)
include h

/-- The value of an element is among the parts of the literal. -/
theorem same_value {element : Element} (helement : element ∈ elements) :
    G.Same self other element.value :=
  h _ (List.mem_flatMap.mpr ⟨element, helement, by simp [Element.parts]⟩)

/-- Slots that hold the values of the elements. -/
theorem agreeBy_indexedSlots (elem : GoType) (position : Nat) :
    G.AgreeBy (∀ v ∈ ·, G.Same self other v.value) (indexedSlots elem position elements)
      (indexedSlots elem position elements) := by
  induction elements generalizing position with
  | nil => exact .pure fun v hv => by cases hv
  | cons element elements ih =>
    have hrest := same_rest h
    refine .look (still_elementSlot position element.key) fun slot => ?_
    refine (ih hrest (slot + 1)).bind fun slots hslots => .pure ?_
    exact List.forall_mem_cons.mpr ⟨same_value h (by simp), hslots⟩

/-- Slots of fields, by their names. -/
theorem agreeBy_keyedSlots (type : GoType) (fields : List Field) :
    G.AgreeBy (∀ v ∈ ·, G.Same self other v.value) (keyedSlots type fields elements)
      (keyedSlots type fields elements) := by
  induction elements with
  | nil => exact .pure fun v hv => by cases hv
  | cons element elements ih =>
    have hrest := same_rest h
    unfold keyedSlots
    dsimp only
    split
    · refine (ih hrest).bind fun slots hslots => .pure ?_
      exact List.forall_mem_cons.mpr ⟨same_value h (by simp), hslots⟩
    · exact .fail _

/-- Arrays and slices: zeros, slots, and the values in them. -/
theorem agree_indexedElements (e : Expr) (elem : GoType) (len : Option Nat) :
    G.Agree (indexedElements self e elements elem len) (indexedElements other e elements elem len) := by
  refine .look (still_zeroFor e elem) fun zero => ?_
  refine (agreeBy_indexedSlots h elem 0).bind fun slots hslots => ?_
  refine (agree_slotTexts hslots).bind fun texts _ => ?_
  dsimp only
  split
  · exact .pure trivial
  · exact .ite (fun _ => .unsupported) fun _ => .pure trivial

/-- Keys and values of a map are lowered in turn. -/
theorem agree_mapEntries (e : Expr) (key elem : GoType) :
    G.Agree (mapEntries self e key elem elements) (mapEntries other e key elem elements) := by
  induction elements with
  | nil => exact .pure trivial
  | cons element elements ih =>
    have hrest := same_rest h
    unfold mapEntries
    split
    · exact .unsupported
    · next k hk =>
      have hkey : G.Same self other k := h k (by simp [Element.parts, hk])
      refine (agree_mapKey hkey key).bind fun keyText _ => ?_
      refine (agree_implicitCopy (same_value h (by simp)) elem).bind fun value _ => ?_
      exact (ih hrest).bind fun entries _ => .pure trivial

/-- Fields by name, over zero values of all fields. -/
theorem agree_keyedFields (e : Expr) (type : GoType) (fields : List Field) :
    G.Agree (keyedFields self e type fields elements) (keyedFields other e type fields elements) := by
  refine .look (.mapM (fun f => still_zeroFor e f.type) fields) fun zeros => ?_
  refine (agreeBy_keyedSlots h type fields).bind fun slots hslots => ?_
  exact (agree_slotTexts hslots).bind fun texts _ => .pure trivial

/-- One value for each field, in the order of the fields. -/
theorem agree_positionalFields (e : Expr) (type : GoType) (fields : List Field) :
    G.Agree (positionalFields self e type fields elements)
      (positionalFields other e type fields elements) := by
  refine .ite (fun _ => agree_mapM fun p hp => ?_) fun _ => .fail _
  exact (agree_implicitCopy (same_value h (List.of_mem_zip hp).1) p.2.type).map Fragment.text

/-- A composite literal has one rule for each kind of type. -/
theorem agree_composite (e : Expr) :
    G.Agree (composite self e elements) (composite other e elements) := by
  refine .look (still_typeOf e) fun type => ?_
  dsimp only
  split
  -- An array, a slice and a map.
  · exact (agree_indexedElements h e _ _).bind fun _ _ => .pure trivial
  · exact (agree_indexedElements h e _ _).bind fun _ _ => .pure trivial
  · exact (agree_mapEntries h e _ _).bind fun _ _ => .pure trivial
  -- A struct with keys, or without.
  · refine .ite (fun _ => ?_) fun _ => ?_
    · exact (agree_keyedFields h e _ _).bind fun _ _ => .pure trivial
    · exact (agree_positionalFields h e _ _).bind fun _ _ => .pure trivial
  · exact .unsupported

end

end Ground

end GoLua
