import GoLua.Proofs.Integer.Constant
import GoLua.Proofs.Integer.Rules
import GoLua.Proofs.Template.Repeated

/-!
# Comparisons with constants

Two comparisons have a form of their own: unsigned integers that fill the cell, which are ordered with
their sign bits turned over, and complex numbers, which are equal if their parts are. Either form is
chosen by the type of the left operand. An untyped constant has a type that says nothing about the
other side, so where it stands on the left, the form is not chosen.

* For an ordering, the cells are then compared with their sign. That is the order of the integers just
  where both lie on the same side of `2 ^ 63` (`compare_signed_iff`).
* For an equality, a literal is then compared with the table that a complex number is, and no part is
  looked at.

`Lower.comparisons_with_constants` says which form is taken on which side and what it comes to.
-/

namespace GoLua

open Lower Template Lua

/-! ### What stays known -/

/-- **Types stay.** Only nodes that are made get a type. -/
def keepingTypes (p : Prices) : RunLaw p where
  rel _ _ _ s s' := ∀ id, ¬ p.fresh id → s'.overlay.types.get? id = s.overlay.types.get? id
  stay _ _ := rfl
  spend h _ := h
  trans h h' id hid := (h' id hid).trans (h id hid)
  newLocal _ _ _ := rfl
  accessorBox {_ s} key _ _ _ := by
    unfold FunctionState.accessorBox
    split <;> rfl
  reportError _ _ _ _ := rfl
  newNode {_ s} type hnew id hid := by
    change (s.overlay.types.insert s.nextSynthetic type).get? id = _
    rw [NodeTable.get?_insert, if_neg]
    rintro rfl
    exact hid hnew
  use _ _ _ _ _ _ := rfl
  select _ _ _ _ _ _ := rfl
  mark _ _ _ _ _ := rfl
  visit _ _ _ := rfl
  request _ _ _ _ := rfl
  keep _ _ _ _ _ := rfl
  assign _ _ _ _ _ _ := rfl
  callStatement _ _ _ _ _ := rfl
  callValue _ _ _ _ _ := rfl
  native _ h h' _ id hid := (h' id hid).trans (h id hid)
  guard _ _ _ _ h h' id hid := (h' id hid).trans (h id hid)
  stuck _ h := h
  insert h h' id hid := (h' id hid).trans (h id hid)

section

variable {env : Env} {s s₁ s' : FunctionState} {e v c : Expr} {own : Kind} {n : Int} {m : Nat}

/-- What is known of a node before other parts are lowered is known after them. -/
theorem known_within {r : Except CompileError Fragment} {id : NodeId} (hid : id < s.nextSynthetic)
    (hrun : (within m e none).runIn env s = (r, s')) :
    env.type? s' id = env.type? s id ∧ env.constant? s' id = env.constant? s id := by
  have htypes := ((keepingTypes (freePrices env s)).holds_within m e none env s
    (ready_freePrices env s) r s' hrun).rel id (Nat.not_le.mpr hid)
  exact ⟨by rw [Env.type?, Env.type?, htypes], constant?_within id hrun⟩

/-- A known integer is still known once its operands were lowered. -/
theorem Env.KnownInteger.within {r : Except CompileError Fragment} {id : NodeId}
    (h : env.KnownInteger s id own n) (hid : id < s.nextSynthetic)
    (hrun : (Lower.within m e none).runIn env s = (r, s')) : env.KnownInteger s' id own n := by
  obtain ⟨htype, hconstant⟩ := known_within hid hrun
  exact ⟨by rw [htype]; exact h.kind, h.isInteger, by rw [hconstant]; exact h.value⟩

/-- A known integer that its kind leaves alone is written as the literal of its value. -/
theorem puts_known (h : env.KnownInteger s c.id own n) (hwrap : wrapInteger n own = n) :
    Puts (within (m + 1)) env .expression s c (intLiteral n) s := by
  obtain ⟨type, htype, hkind⟩ := h.kind
  obtain ⟨value, hvalue, hn⟩ := h.value
  have hrun : (within (m + 1) c none).runIn env s = (.ok (integerFragment n), s) := by
    change (expression (within m) c none).runIn env s = _
    have hown : SpelledIn own none own := .own (by simp)
    rw [runIn_expression_constant htype hvalue, lower_eq_ok_of_integer hkind h.isInteger hn hown,
      hwrap]
    rfl
  exact fun {_ _ _ _} => Puts.known hvalue hrun

end

/-! ### Order -/

/-- The ordering that holds of the operands in the other order. -/
def BinaryOp.mirror : BinaryOp → BinaryOp
  | .lss => .gtr
  | .leq => .geq
  | .gtr => .lss
  | .geq => .leq
  | op => op

/-- An operator compares what its mirror image compares the other way round. -/
theorem compare_mirror (op : BinaryOp) (a b : Int) : op.mirror.compare b a = op.compare a b := by
  cases op <;> rfl

theorem mirror_mem {op : BinaryOp} (h : op ∈ orderingOps) : op.mirror ∈ orderingOps := by
  revert h
  cases op <;> decide

/-- **The order with a sign.** It is the order without a sign just if both integers fit the signed cell
or neither does. -/
theorem compare_signed_iff {op : BinaryOp} (hop : op ∈ orderingOps) {a b : Int}
    (ha : 0 ≤ a ∧ a < 0x10000000000000000) (hb : 0 ≤ b ∧ b < 0x10000000000000000) :
    op.compare (cell a).toInt (cell b).toInt = op.compare a b ↔
      (a < 0x8000000000000000 ↔ b < 0x8000000000000000) := by
  rw [toInt_cell_of_nonneg ha.1 ha.2, toInt_cell_of_nonneg hb.1 hb.2]
  cases op
  case lss | leq | gtr | geq =>
    simp only [BinaryOp.compare, Except.ok.injEq, decide_eq_decide]
    split <;> split <;> omega
  all_goals exact absurd hop (by decide)

/-- The same of a cell, with a sign and without one. -/
theorem compare_toInt_iff {op : BinaryOp} (hop : op ∈ orderingOps) (x : BitVec 64) {n : Int}
    (hn : 0 ≤ n ∧ n < 0x10000000000000000) :
    op.compare x.toInt (cell n).toInt = op.compare x.toNat n ↔
      (x.toNat < 0x8000000000000000 ↔ n < 0x8000000000000000) := by
  have hx : (0 : Int) ≤ x.toNat ∧ (x.toNat : Int) < 0x10000000000000000 := by
    have hlt := x.isLt
    omega
  have h := compare_signed_iff hop hx hn
  rw [cell_toNat] at h
  exact_mod_cast h

/-- **A test of a cell.** Wherever the text of an operand comes to a cell, a fragment comes to an outcome
that depends on the cell. -/
def Tests (operand : String) (g : Fragment) (outcome : BitVec 64 → Except Panic Bool) : Prop :=
  ∀ ⦃globals : String → Value⦄ ⦃a : Exp⦄ ⦃x : BitVec 64⦄, Library globals → Tight operand.toList a →
    a.eval globals = .ok (.integer x) →
      ∃ b, read g.text = some b ∧ Agrees Value.truth (outcome x) (b.eval globals)

section

variable {env : Env} {s s' : FunctionState} {e v c : Expr} {f : Fragment} {own : Kind} {m : Nat}
  {op : BinaryOp} {native : Lua.Binary} {globals : String → Value} {a b : Exp} {x y : BitVec 64}
  {n : Int}

/-- Lua has every ordering. -/
theorem exists_native (h : op ∈ orderingOps) : ∃ native, op.native? = some native := by
  revert h
  cases op <;> simp [orderingOps, BinaryOp.native?]

/-- An ordering of cells is that of their signed readings. -/
theorem agrees_signed (hop : op ∈ orderingOps) (hnative : op.native? = some native)
    (ha : a.eval globals = .ok (.integer x)) (hb : b.eval globals = .ok (.integer y)) :
    Agrees Value.truth (op.compare x.toInt y.toInt) ((Exp.binary native a b).eval globals) := by
  rw [eval_binary native (not_connective_native hnative), ha, hb]
  exact agrees_ordering hnative hop BitVec.slt_eq_decide BitVec.slt_eq_decide

/-- With the sign bits turned over it is that of their readings without a sign. -/
theorem agrees_unsigned (hop : op ∈ orderingOps) (hnative : op.native? = some native)
    (hlibrary : Library globals) (ha : a.eval globals = .ok (.integer x))
    (hb : b.eval globals = .ok (.integer y)) :
    Agrees Value.truth (op.compare x.toNat y.toNat)
      ((Exp.binary native (.binary .bitXor a leastExp) (.binary .bitXor b leastExp)).eval
        globals) := by
  -- Turning the sign bits over takes the order of unsigned words to that of signed cells.
  have hflip {a : Exp} {x : BitVec 64} (ha : a.eval globals = .ok (.integer x)) :
      (Exp.binary .bitXor a leastExp).eval globals = .ok (.integer (x ^^^ BitVec.intMin 64)) := by
    rw [eval_binary .bitXor (by decide), ha, eval_leastExp hlibrary]
    rfl
  have hrange (x : BitVec 64) : Kind.uint64.InRange x.toNat := inRange_number (k := .uint64) x
  have hslt (x y : BitVec 64) : (x ^^^ BitVec.intMin 64).slt (y ^^^ BitVec.intMin 64) =
      decide ((x.toNat : Int) < y.toNat) := by
    have h := slt_cell_xor (hrange x) (hrange y)
    rwa [cell_toNat, cell_toNat] at h
  rw [eval_binary native (not_connective_native hnative), hflip ha, hflip hb]
  exact agrees_ordering hnative hop (hslt x y) (hslt y x)

/-- The orderings have a rule of their own. -/
theorem binary_of_ordering {self : Lowering} (hop : op ∈ orderingOps) (left right : Expr) :
    binary self e op left right = ordering self op left right := by
  cases op
  case lss | leq | gtr | geq => rfl
  all_goals exact absurd hop (by decide)

/-- The literal of an integer from zero on is an operand that comes to its cell. -/
theorem tight_literal_nonneg (hn : 0 ≤ n) : Tight (intLiteral n).toList (literalExp n) :=
  tight_intLiteral (by omega)

theorem toNat_cell_cast (hn : 0 ≤ n ∧ n < 0x10000000000000000) : ((cell n).toNat : Int) = n := by
  rw [toNat_cell hn.1 hn.2, Int.toNat_of_nonneg hn.1]

section Constants

variable (hop : op ∈ orderingOps) (hv : env.kind? s v.id = some .uint64)
  (hunknown : env.constant? s v.id = none) (hc : env.KnownInteger s c.id own n)
  (hwrap : wrapInteger n own = n) (hn : 0 ≤ n ∧ n < 0x10000000000000000)
  (hrun : (within (m + 1) v none).runIn env s = (.ok f, s'))

include hop hv hunknown hc hwrap hn hrun

/-- **With the constant on the right** an operand of `uint64` is ordered without a sign. -/
theorem runIn_ordering_constant_right (hid : c.id < s.nextSynthetic) :
    ∃ g, (binary (within (m + 1)) e op v c).runIn env s = (.ok g, s') ∧
      Tests f.operand g fun x => op.compare x.toNat n := by
  obtain ⟨native, hnative⟩ := exists_native hop
  obtain ⟨type, htype, hkind⟩ := exists_type_of_kind hv
  rw [binary_of_ordering hop]
  refine ⟨_, runIn_ordering_uint64 htype hkind (Puts.operand hunknown hrun)
    (puts_known (hc.within hid hrun) hwrap) op, fun globals a x hlibrary ha heval => ⟨_,
      (whole_flipped hnative ha (tight_literal_nonneg hn.1)).read, ?_⟩⟩
  have h := agrees_unsigned hop hnative hlibrary heval (eval_literalExp hlibrary n)
  rwa [toNat_cell_cast hn] at h

omit hv in
/-- **With the constant on the left** it is so if the constant is of `uint64` as well. -/
theorem runIn_ordering_constant_left (hown : own = .uint64) :
    ∃ g, (binary (within (m + 1)) e op c v).runIn env s = (.ok g, s') ∧
      Tests f.operand g fun x => op.compare n x.toNat := by
  obtain ⟨native, hnative⟩ := exists_native hop
  obtain ⟨type, htype, hkind⟩ := hc.kind
  rw [binary_of_ordering hop]
  refine ⟨_, runIn_ordering_uint64 htype (hown ▸ hkind) (puts_known hc hwrap)
    (Puts.operand hunknown hrun) op, fun globals a x hlibrary ha heval => ⟨_,
      (whole_flipped hnative (tight_literal_nonneg hn.1) ha).read, ?_⟩⟩
  have h := agrees_unsigned hop hnative hlibrary (eval_literalExp hlibrary n) heval
  rwa [toNat_cell_cast hn] at h

omit hv hn in
/-- Else the order is that of the signed readings of the cells. -/
theorem runIn_ordering_constant_signed (hown : own ≠ .uint64) (hn : 0 ≤ n) :
    ∃ g, (binary (within (m + 1)) e op c v).runIn env s = (.ok g, s') ∧
      Tests f.operand g fun x => op.compare (cell n).toInt x.toInt := by
  -- The known side decides the kind, and it is not an unsigned word, so the test stays a signed
  -- one.
  obtain ⟨native, hnative⟩ := exists_native hop
  obtain ⟨type, htype, hkind⟩ := hc.kind
  have hsigned : type.basicKind? ≠ some .uint64 := by
    rw [hkind]
    exact fun h => hown (Option.some.inj h)
  rw [binary_of_ordering hop]
  exact ⟨_, runIn_ordering htype hsigned (puts_known hc hwrap) (Puts.operand hunknown hrun) op,
    fun globals a x hlibrary ha heval => ⟨_,
      (whole_binary (tight_literal_nonneg hn) ha (toList_token hnative)).read,
      agrees_signed hop hnative (eval_literalExp hlibrary n) heval⟩⟩

end Constants

end

/-! ### Parts of complex numbers -/

/-- A complex number on one side of a test: an operand that the parts are taken of, or a constant with
known parts. -/
inductive Side where
  | operand (base : String)
  | constant (re im : Double)

/-- The text of a part. -/
def Side.text (part : Tag) : Side → String
  | .operand base => part.around false base
  | .constant re im => floatLiteral (if part == .realPart then re else im)

/-- The parts of a side, given those of operands. -/
def Side.parts (value : String → Double × Double) : Side → Double × Double
  | .operand base => value base
  | .constant re im => (re, im)

/-- The word between the tests of the two parts. -/
def joint (negated : Bool) : String :=
  if negated then " or " else " and "

/-- The text that tests two sides for equality, or for its negation. -/
def partsTest (negated : Bool) (l r : Side) : String :=
  l.text .realPart ++ (" " ++ equalityToken negated ++ " " ++ (r.text .realPart ++ (joint negated ++
    (l.text .imagPart ++ (" " ++ equalityToken negated ++ " " ++ (r.text .imagPart ++ ""))))))

/-- How the test comes out, given the parts of operands. -/
def partsTestHolds (value : String → Double × Double) (negated : Bool) (l r : Side) : Bool :=
  let re := (l.parts value).1.numericallyEqual (r.parts value).1
  let im := (l.parts value).2.numericallyEqual (r.parts value).2
  if negated then !re || !im else re && im

theorem numericallyEqual_comm (x y : Double) : x.numericallyEqual y = y.numericallyEqual x := by
  rw [Double.numericallyEqual, Double.numericallyEqual, BEq.comm, Bool.and_comm y.isZero,
    Bool.and_comm (!y.isNaN)]

/-- The test does not depend on which side is which. -/
theorem partsTestHolds_comm (value : String → Double × Double) (negated : Bool) (l r : Side) :
    partsTestHolds value negated l r = partsTestHolds value negated r l := by
  simp only [partsTestHolds, numericallyEqual_comm (l.parts value).1,
    numericallyEqual_comm (l.parts value).2]

/-- The test is the one for equal numbers. -/
theorem partsTestHolds_eq (value : String → Double × Double) (negated : Bool) (l r : Side) :
    partsTestHolds value negated l r =
      ((Constant.complex (l.parts value).1 (l.parts value).2).sameValue
        (.complex (r.parts value).1 (r.parts value).2) != negated) := by
  simp only [partsTestHolds, Constant.sameValue]
  cases negated <;> simp [Bool.not_and]

section

variable {env : Env} {s s₁ s' : FunctionState} {e z c left right : Expr} {f g : Fragment}
  {kind own : Kind} {m : Nat} {negated : Bool} {value : Constant} {re im : Double}
  {self : Lowering} {pattern : String} {named : List (Operand × Option String)} {l r : Side}

/-- The pieces of the test of two parts. -/
def partsPieces (negated : Bool) : List Piece :=
  [.placeholder ['1'] 0 .realPart, .literal (" " ++ equalityToken negated ++ " ").toList,
    .placeholder ['2'] 1 .realPart, .literal (joint negated).toList,
    .placeholder ['1'] 0 .imagPart, .literal (" " ++ equalityToken negated ++ " ").toList,
    .placeholder ['2'] 1 .imagPart]

/-- A side is written in a state for either of its parts. -/
def WritesSide (self : Lowering) (env : Env) (s : FunctionState) (pattern : String)
    (named : List (Operand × Option String)) (i : Nat) (side : Side) : Prop :=
  ∀ {digits : List Char} {part : Tag} {ps : List Piece} {rest : String},
    part = .realPart ∨ part = .imagPart → FixedAt self env s pattern named ps rest →
      FixedAt self env s pattern named (.placeholder digits i part :: ps) (side.text part ++ rest)

/-- Both parts are compared, the real ones first. -/
theorem fixedAt_partsTest (hl : WritesSide self env s pattern named 0 l)
    (hr : WritesSide self env s pattern named 1 r) :
    FixedAt self env s pattern named (partsPieces negated) (partsTest negated l r) := by
  have hliteral {text rest : String} {ps : List Piece} (hps : FixedAt self env s pattern named ps rest) :
      FixedAt self env s pattern named (.literal text.toList :: ps) (text ++ rest) := by
    have h := hps.literal text.toList
    rwa [String.ofList_toList] at h
  exact hl (.inl rfl) (hliteral (hr (.inl rfl) (hliteral (hl (.inr rfl) (hliteral
    (hr (.inr rfl) .nil))))))

theorem mem_baseTags {part : Tag} (h : part = .realPart ∨ part = .imagPart) : part ∈ baseTags := by
  rcases h with rfl | rfl <;> decide

/-- A side that is bound to a name is written by it. -/
theorem writesSide_name {i : Nat} {name : String} (hnamed : named[i]? = some (.expr z, some name))
    (hunknown : env.constant? s z.id = none) :
    WritesSide self env s pattern named i (.operand name) :=
  fun hpart hps => hps.name hnamed hunknown (mem_baseTags hpart)

/-- A side that may be repeated is written by its text. -/
theorem writesSide_again {i : Nat} (hnamed : named[i]? = some (.expr z, none))
    (hunknown : env.constant? s z.id = none) (hrun : (self z none).runIn env s = (.ok f, s)) :
    WritesSide self env s pattern named i (.operand f.operand) :=
  fun hpart hps => hps.again hnamed hunknown (mem_baseTags hpart) hrun

/-- A side that is known is written by its value. -/
theorem writesSide_constant {i : Nat} (hnamed : named[i]? = some (.expr c, none))
    (hvalue : env.constant? s c.id = some value) (hre : value.re? = some re)
    (him : value.im? = some im) : WritesSide self env s pattern named i (.constant re im) := by
  intro digits part ps rest hpart hps
  refine hps.constantPart hnamed hvalue hpart ?_
  rcases hpart with rfl | rfl
  · exact hre
  · exact him

/-- The pattern of the test. -/
def partsPattern (negated : Bool) : String :=
  "%1r " ++ equalityToken negated ++ " %2r" ++ joint negated ++ "%1i " ++ equalityToken negated ++
    " %2i"

theorem parse_partsPattern : parse 2 (partsPattern negated) = .ok (partsPieces negated) := by
  cases negated <;> rfl

theorem useCount_partsPieces {i : Nat} (hi : i < 2) : 1 < useCount i (partsPieces negated) := by
  revert negated
  revert i
  decide

section Parts

variable (hunknown : env.constant? s z.id = none) (hvalue : env.constant? s c.id = some value)
  (hre : value.re? = some re) (him : value.im? = some im)
  (hrun : (within m z none).runIn env s = (.ok f, s₁))

include hunknown hvalue hre him hrun

/-- The parts of an operand against those of a constant on the right. -/
theorem runIn_parts_right :
    ∃ g s', (renderParen (within m) (partsPattern negated) [z, c]).runIn env s = (.ok g, s') ∧
      Repeats z f s₁ true (fun base => partsTest negated (.operand base) (.constant re im)) g s' := by
  -- The known side may be repeated, so the other one is the only operand the pattern could bind.
  have hrepeatable : ∀ o ∈ [Operand.expr c], o.isRepeatable (env.isConstant s) := by
    intro o ho
    obtain rfl := List.mem_singleton.mp ho
    simp [Operand.isRepeatable, Env.isConstant, hvalue]
  refine runIn_renderAs_repeated [] [.expr c] parse_partsPattern
    (useCount_partsPieces (by decide)) hunknown (by simp) hrepeatable hrun (fun hident => ?_)
    (fun name => ?_) true
  · obtain rfl := (still_within_of_isIdent hident m none).runIn_eq_ok hrun
    exact ⟨rfl, fixedAt_partsTest (writesSide_again rfl hunknown hrun)
      (writesSide_constant rfl hvalue hre him)⟩
  · exact fixedAt_partsTest (writesSide_name rfl ((constant?_newLocal z.id hrun).trans hunknown))
      (writesSide_constant rfl ((constant?_newLocal c.id hrun).trans hvalue) hre him)

/-- The parts of an operand against those of a constant on the left. -/
theorem runIn_parts_left :
    ∃ g s', (renderParen (within m) (partsPattern negated) [c, z]).runIn env s = (.ok g, s') ∧
      Repeats z f s₁ true (fun base => partsTest negated (.constant re im) (.operand base)) g s' := by
  -- As with the sides exchanged.
  have hrepeatable : ∀ o ∈ [Operand.expr c], o.isRepeatable (env.isConstant s) := by
    intro o ho
    obtain rfl := List.mem_singleton.mp ho
    simp [Operand.isRepeatable, Env.isConstant, hvalue]
  refine runIn_renderAs_repeated [.expr c] [] parse_partsPattern
    (useCount_partsPieces Nat.one_lt_two) hunknown hrepeatable (by simp) hrun (fun hident => ?_)
    (fun name => ?_) true
  · obtain rfl := (still_within_of_isIdent hident m none).runIn_eq_ok hrun
    exact ⟨rfl, fixedAt_partsTest (writesSide_constant rfl hvalue hre him)
      (writesSide_again rfl hunknown hrun)⟩
  · exact fixedAt_partsTest
      (writesSide_constant rfl ((constant?_newLocal c.id hrun).trans hvalue) hre him)
      (writesSide_name rfl ((constant?_newLocal z.id hrun).trans hunknown))

end Parts

/-! ### Equality -/

/-- Whether an expression is the predeclared `nil`. -/
def Env.isNil (env : Env) (s : FunctionState) (e : Expr) : Bool :=
  e.unparen.isIdent && (env.binding s e.unparen.id).object?.any (·.kind == .nil)

theorem runIn_isNil (env : Env) (s : FunctionState) (e : Expr) :
    (Lower.isNil e).runIn env s = (.ok (env.isNil s e), s) := by
  unfold Lower.isNil Env.isNil
  cases e.unparen.isIdent <;> rfl

/-- A basic type is neither an interface nor an aggregate, nor a pointer. -/
theorem not_compound_of_kind {type : GoType} (h : type.basicKind? = some kind) :
    type.isInterface = false ∧ comparesByParts type = false := by
  unfold GoType.basicKind? at h
  unfold GoType.isInterface comparesByParts
  split at h
  · next k hk =>
    rw [hk]
    exact ⟨rfl, rfl⟩
  · cases h

/-- Two numbers are compared by the rule of the left one's type. -/
theorem runIn_equality_numeric {ltype rtype : GoType} (hl : env.type? s left.id = some ltype)
    (hr : env.type? s right.id = some rtype) (hlkind : ltype.basicKind? = some kind)
    (hrkind : rtype.basicKind? = some own) (hnumeric : kind.isNumeric)
    (hlnil : env.isNil s left = false) (hrnil : env.isNil s right = false) :
    (equality self e negated left right).runIn env s =
      (comparedWith self negated left right ltype none).runIn env s := by
  have htruth : ltype.basicKind?.any Kind.isTruth = false := by
    rw [hlkind]
    revert hnumeric
    cases kind <;> decide
  -- Neither side is `nil`, none is compared by parts, and the kind is no truth value: what is left
  -- is the plain test.
  rw [equality, LowerM.runIn_bind_ok (runIn_isNil env s left),
    LowerM.runIn_bind_ok (runIn_isNil env s right), hlnil]
  change (equalityOf self e negated left right).runIn env s = _
  rw [equalityOf, LowerM.runIn_bind_ok (runIn_typeOf_of_type? hl),
    LowerM.runIn_bind_ok (runIn_typeOf_of_type? hr), LowerM.runIn_bind_ok (runIn_isNil env s right),
    hrnil, (not_compound_of_kind hlkind).1, (not_compound_of_kind hrkind).1,
    (not_compound_of_kind hlkind).2]
  simp only [plainEquality, htruth]
  rfl

/-- Complex numbers are compared by their parts. -/
theorem comparedWith_of_isComplex {type : GoType} (hkind : type.basicKind? = some kind)
    (hcomplex : kind.isComplex) :
    comparedWith self negated left right type none =
      renderParen self (partsPattern negated) [left, right] := by
  rw [comparedWith, hkind, Option.any_some, hcomplex]
  rfl

/-- A literal against a complex number, where neither has its parts taken. -/
theorem runIn_equality_whole {ltype : GoType} (hl : env.type? s c.id = some ltype)
    (hlkind : ltype.basicKind? = some own) (hcomplex : own.isComplex = false)
    (hvalue : env.constant? s c.id = some value)
    (hliteral : value.lower ltype none c.location = .ok g)
    (hunknown : env.constant? s z.id = none)
    (hrun : (within (m + 1) z none).runIn env s = (.ok f, s₁)) :
    (comparedWith (within (m + 1)) negated c z ltype none).runIn env s =
      (.ok (.operation (g.text ++ (" " ++ equalityToken negated ++ " ") ++ f.operand)), s₁) := by
  have hleft : (within (m + 1) c none).runIn env s = (.ok g, s) := by
    change (expression (within m) c none).runIn env s = _
    rw [runIn_expression_constant hl hvalue, hliteral]
    rfl
  have hputc : Puts (within (m + 1)) env .expression s c g.text s :=
    Puts.known hvalue hleft
  have hbetween : (" " ++ equalityToken negated ++ " ") =
      String.ofList (" " ++ equalityToken negated ++ " ").toList := String.ofList_toList.symm
  -- The literal is bracketed as a known operand is, and the text between the two depends on the
  -- operator only.
  rw [comparedWith, hlkind, Option.any_some, hcomplex, hbetween]
  refine runIn_renderParen_between ?_ ?_ hputc (Puts.operand hunknown hrun) <;> cases negated <;>
    first
    | rfl
    | decide

end

/-! ### Comparisons with constants -/

section

variable (env : Env) (s : FunctionState)

/-- An operand of `uint64`, or of a type that is declared as it, and an integer in its range that is known
and untyped or of the same kind. -/
structure Env.UnsignedWithConstant (v c : Expr) (own : Kind) (n : Int) : Prop where
  unsigned : env.kind? s v.id = some .uint64
  unknown : env.constant? s v.id = none
  integer : env.KnownInteger s c.id own n
  kind : own.isUntyped ∨ own = .uint64
  range : 0 ≤ n ∧ n < 0x10000000000000000
  node : c.id < s.nextSynthetic

/-- An operand of a complex kind, and a constant of a numeric kind with known parts. -/
structure Env.ComplexWithConstant (z c : Expr) (own : Kind) (value : Constant) (re im : Double) :
    Prop where
  complex : ∃ kind, env.kind? s z.id = some kind ∧ kind.isComplex
  unknown : env.constant? s z.id = none
  notNil : env.isNil s z = false ∧ env.isNil s c = false
  kind : env.kind? s c.id = some own
  isNumeric : own.isNumeric
  constant : env.constant? s c.id = some value
  parts : value.re? = some re ∧ value.im? = some im

end

section

variable {env : Env} {s s₁ : FunctionState} {v z c : Expr} {own : Kind} {n : Int} {f g : Fragment}
  {value : Constant} {re im : Double} {m : Nat}

theorem Env.UnsignedWithConstant.wrap (h : env.UnsignedWithConstant s v c own n) :
    wrapInteger n own = n := by
  rcases h.kind with huntyped | rfl
  · exact wrapInteger_of_isUntyped huntyped n
  · exact (wrapInteger_eq_wrap rfl n).trans (wrap_of_inRange ⟨h.range.1, h.range.2⟩)

theorem Env.ComplexWithConstant.exists_types
    (h : env.ComplexWithConstant s z c own value re im) :
    ∃ kind ztype ctype, kind.isComplex ∧ env.type? s z.id = some ztype ∧
      ztype.basicKind? = some kind ∧ env.type? s c.id = some ctype ∧ ctype.basicKind? = some own := by
  obtain ⟨kind, hkind, hcomplex⟩ := h.complex
  obtain ⟨ztype, hz, hzkind⟩ := exists_type_of_kind hkind
  obtain ⟨ctype, hc, hckind⟩ := exists_type_of_kind h.kind
  exact ⟨kind, ztype, ctype, hcomplex, hz, hzkind, hc, hckind⟩

theorem Kind.isNumeric_of_isComplex {kind : Kind} (h : kind.isComplex) : kind.isNumeric := by
  rw [Kind.isNumeric, h, Bool.or_true]

end

/-- **Comparisons with constants.** An ordering of an operand of `uint64` and a constant is that of Go if
the operand is on the left, or if the constant has the kind as well. If an untyped constant is on the
left, the signed readings are compared, and that is the ordering of Go just if cell and constant lie on
the same side of `2 ^ 63`.

An equality of a complex number and a constant tests the real and the imaginary parts if the number is on
the left, or if the constant is of a complex kind, and these tests come out alike. If an untyped constant
of another kind is on the left, its literal is compared with the number as a whole. -/
theorem Lower.comparisons_with_constants (env : Env) (s : FunctionState) (m : Nat) (e : Expr) :
    (∀ (op : BinaryOp) (v c : Expr) (own : Kind) (n : Int) (f : Fragment) (s' : FunctionState),
      op ∈ orderingOps → env.UnsignedWithConstant s v c own n →
      (within (m + 1) v none).runIn env s = (.ok f, s') →
      (∃ g, (binary (within (m + 1)) e op v c).runIn env s = (.ok g, s') ∧
        Tests f.operand g fun x => op.compare x.toNat n) ∧
      (∃ g, (binary (within (m + 1)) e op.mirror c v).runIn env s = (.ok g, s') ∧
        Tests f.operand g fun x =>
          if own = .uint64 then op.compare x.toNat n else op.compare x.toInt (cell n).toInt) ∧
      ∀ x : BitVec 64, op.compare x.toInt (cell n).toInt = op.compare x.toNat n ↔
        (x.toNat < 0x8000000000000000 ↔ n < 0x8000000000000000)) ∧
    ∀ (negated : Bool) (z c : Expr) (own : Kind) (value : Constant) (re im : Double) (f : Fragment)
      (s₁ : FunctionState), env.ComplexWithConstant s z c own value re im →
      (within (m + 1) z none).runIn env s = (.ok f, s₁) →
      (∃ g s', (equality (within (m + 1)) e negated z c).runIn env s = (.ok g, s') ∧
        Repeats z f s₁ true (fun base => partsTest negated (.operand base) (.constant re im)) g s') ∧
      (own.isComplex →
        ∃ g s', (equality (within (m + 1)) e negated c z).runIn env s = (.ok g, s') ∧
          Repeats z f s₁ true (fun base => partsTest negated (.constant re im) (.operand base)) g
            s') ∧
      (own.isComplex = false → ∀ (type : GoType) (g : Fragment), env.type? s c.id = some type →
        value.lower type none c.location = .ok g →
          (equality (within (m + 1)) e negated c z).runIn env s =
            (.ok (.operation (g.text ++ (" " ++ equalityToken negated ++ " ") ++ f.operand)), s₁)) ∧
      ∀ (parts : String → Double × Double) (base : String),
        partsTestHolds parts negated (.operand base) (.constant re im) =
            partsTestHolds parts negated (.constant re im) (.operand base) ∧
          partsTestHolds parts negated (.operand base) (.constant re im) =
            ((Constant.complex (parts base).1 (parts base).2).sameValue (.complex re im) !=
              negated) := by
  -- The first three parts are about ordering, the others about equality, with the known side on the
  -- right and on the left.
  refine ⟨fun op v c own n f s' hop h hrun => ⟨?_, ?_, fun x => ?_⟩,
    fun negated z c own value re im f s₁ h hrun => ⟨?_, fun hown => ?_, fun hown type g htype hg => ?_,
      fun parts base => ⟨partsTestHolds_comm .., partsTestHolds_eq ..⟩⟩⟩
  · exact runIn_ordering_constant_right hop h.unsigned h.unknown h.integer h.wrap h.range hrun h.node
  · by_cases hown : own = .uint64
    · obtain ⟨g, hg, htests⟩ := runIn_ordering_constant_left (mirror_mem hop) h.unknown h.integer h.wrap
        h.range hrun hown
      refine ⟨g, hg, ?_⟩
      simp only [compare_mirror] at htests
      simpa only [if_pos hown] using htests
    · obtain ⟨g, hg, htests⟩ := runIn_ordering_constant_signed (mirror_mem hop) h.unknown h.integer
        h.wrap hrun hown h.range.1
      refine ⟨g, hg, ?_⟩
      simp only [compare_mirror] at htests
      simpa only [if_neg hown] using htests
  · exact compare_toInt_iff hop x h.range
  · obtain ⟨kind, ztype, ctype, hcomplex, hz, hzkind, hc, hckind⟩ := h.exists_types
    rw [runIn_equality_numeric hz hc hzkind hckind (Kind.isNumeric_of_isComplex hcomplex) h.notNil.1
      h.notNil.2, comparedWith_of_isComplex hzkind hcomplex]
    exact runIn_parts_right h.unknown h.constant h.parts.1 h.parts.2 hrun
  · obtain ⟨kind, ztype, ctype, -, hz, hzkind, hc, hckind⟩ := h.exists_types
    rw [runIn_equality_numeric hc hz hckind hzkind h.isNumeric h.notNil.2 h.notNil.1,
      comparedWith_of_isComplex hckind hown]
    exact runIn_parts_left h.unknown h.constant h.parts.1 h.parts.2 hrun
  · obtain ⟨kind, ztype, ctype, -, hz, hzkind, hc, hckind⟩ := h.exists_types
    obtain rfl : ctype = type := Option.some.inj (hc.symm.trans htype)
    rw [runIn_equality_numeric hc hz hckind hzkind h.isNumeric h.notNil.2 h.notNil.1]
    exact runIn_equality_whole hc hckind hown h.constant hg h.unknown hrun

/-! ### Comparisons with one -/

/-- `x`, `z` and `1`, for an unsigned number that fills the cell and a complex one -/
def numbersAndOne : Build (Expr × Expr × Expr) := do
  let x ← Build.var "x" (.basic .uint64)
  let z ← Build.var "z" (.basic .complex128)
  return (x, z, ← Build.int 1 .untypedInt)

/-- `x > 1`, `1 < x`, `z == 1` and `1 == z` -/
def comparedWithOne : Build (List Expr) := do
  let (x, z, one) ← numbersAndOne
  let compare (op : BinaryOp) (left right : Expr) : Build Expr := do
    return .binary (← Build.node (.basic .bool)) op left right
  return [← compare .gtr x one, ← compare .lss one x, ← compare .eql z one, ← compare .eql one z]

/-- The facts about `numbersAndOne` and `comparedWithOne`. -/
def oneEnv : Env :=
  { facts := (comparedWithOne.run {}).2.facts }

/-- The unsigned number is ordered without a sign on the left and with one on the right; the complex number
is compared by parts on the left and as a whole on the right. -/
theorem Lower.comparisons_with_constants_numbersAndOne :
    ∃ x z one, (numbersAndOne.run {}).1 = (x, z, one) ∧
      (∃ g, (binary (within 1) x .gtr x one).runIn oneEnv {} = (.ok g, {}) ∧
        Tests "x" g fun y => BinaryOp.gtr.compare y.toNat 1) ∧
      (∃ g, (binary (within 1) x .lss one x).runIn oneEnv {} = (.ok g, {}) ∧
        Tests "x" g fun y => BinaryOp.gtr.compare y.toInt 1) ∧
      (∃ g s', (equality (within 1) x false z one).runIn oneEnv {} = (.ok g, s') ∧
        Repeats z (.atom "z") {} true
          (fun base => partsTest false (.operand base) (.constant (.ofInt 1) .zero)) g s') ∧
      (equality (within 1) x false one z).runIn oneEnv {} = (.ok (.operation "1 == z"), {}) := by
  refine ⟨_, _, _, rfl, ?_⟩
  obtain ⟨horder, hequality⟩ := Lower.comparisons_with_constants oneEnv {} 0
    (numbersAndOne.run {}).1.1
  have hx : oneEnv.UnsignedWithConstant {} (numbersAndOne.run {}).1.1 (numbersAndOne.run {}).1.2.2
      .untypedInt 1 :=
    ⟨rfl, rfl, ⟨⟨_, rfl, rfl⟩, rfl, ⟨_, rfl, rfl⟩⟩, .inl rfl, by decide, by decide⟩
  have hz : oneEnv.ComplexWithConstant {} (numbersAndOne.run {}).1.2.1 (numbersAndOne.run {}).1.2.2
      .untypedInt (.int 1) (.ofInt 1) .zero :=
    ⟨⟨_, rfl, rfl⟩, rfl, ⟨rfl, rfl⟩, rfl, rfl, rfl, rfl, rfl⟩
  have hrunx : (within 1 (numbersAndOne.run {}).1.1 none).runIn oneEnv {} =
      (.ok (.atom "x"), {}) := rfl
  have hrunz : (within 1 (numbersAndOne.run {}).1.2.1 none).runIn oneEnv {} =
      (.ok (.atom "z"), {}) := rfl
  obtain ⟨hright, hleft, -⟩ := horder .gtr _ _ _ _ _ _ (by decide) hx hrunx
  obtain ⟨hparts, -, hwhole, -⟩ := hequality false _ _ _ _ _ _ _ _ hz hrunz
  have hliteral : (Constant.int 1).lower (.basic .untypedInt) none
      (numbersAndOne.run {}).1.2.2.location = .ok (.atom "1") := rfl
  exact ⟨hright, hleft, hparts, hwhole rfl _ _ rfl hliteral⟩

/-- The number `2 ^ 63` is above one on the left, and not on the right; and only on the left are parts of a
complex number compared. -/
theorem Lower.comparedWithOne_differ :
    ((comparedWithOne.run {}).1.map fun e => ((lower e none).runIn oneEnv {}).1.toOption) =
        [some (.operation "(x ~ math.mininteger) > (1 ~ math.mininteger)"), some (.operation "1 < x"),
          some (.operation "z.real == 1.0 and z.imag == 0.0"), some (.operation "1 == z")] ∧
      (∃ a, read "(x ~ math.mininteger) > (1 ~ math.mininteger)" = some a ∧
        a.eval (holdingX (BitVec.intMin 64)) = .ok (.truth true)) ∧
      (∃ a, read "1 < x" = some a ∧ a.eval (holdingX (BitVec.intMin 64)) = .ok (.truth false)) ∧
      BinaryOp.lss.compare 1 (BitVec.intMin 64).toNat = .ok true := by
  exact ⟨by decide +kernel, ⟨_, rfl, rfl⟩, ⟨_, rfl, rfl⟩, rfl⟩

end GoLua
