import GoLua.Proofs.Integer.Rules

/-!
# Integers that are not cut

The results of `int32` stay in the cell as they are, though Go cuts them like those of any other kind.
This module says what is computed instead, and how far that is from what
the program means.

`Expr.uncut` computes an expression of `int32` in whole cells. The low half of the cell is what Go has
(`Uncut.map_wrap_uncut`), as long as nothing but the low halves of operands matters for it. It is
otherwise for the operands of a quotient and for the count of a shift, which have to be in range
(`Expr.Settled`). Where the result is in range as well, it is that of Go.
-/

namespace GoLua

open Lower Lua

/-! ### Low halves of cells -/

/-- The operators on `int32` with two operands, besides shifts, of which the results are left in the cell. -/
def uncutOps : List BinaryOp :=
  [.add, .sub, .mul, .quo]

section

variable {k : Kind} {x : Except Panic Int} (a b : Int)

/-- The range of a cell leaves the low half of it alone. -/
theorem wrap_wrap_cell : Kind.int32.wrap (Kind.int64.wrap a) = Kind.int32.wrap a := by
  change (BitVec.ofInt 32 (BitVec.ofInt 64 a).toInt).toInt = (BitVec.ofInt 32 a).toInt
  rw [BitVec.toInt_ofInt, BitVec.toInt_ofInt, BitVec.toInt_ofInt]
  exact Int.bmod_bmod_of_dvd (by decide)

/-! What is cut in the end need not be cut before, where signs, sums and products are taken. -/

/-- The opposite modulo the width may be taken before or after wrapping. -/
theorem wrap_neg : Kind.int32.wrap (-Kind.int32.wrap a) = Kind.int32.wrap (-a) := by
  change (BitVec.ofInt 32 (-(BitVec.ofInt 32 a).toInt)).toInt = (BitVec.ofInt 32 (-a)).toInt
  rw [BitVec.ofInt_neg, BitVec.ofInt_toInt, BitVec.ofInt_neg]

/-- So may sums. -/
theorem wrap_add :
    Kind.int32.wrap (Kind.int32.wrap a + Kind.int32.wrap b) = Kind.int32.wrap (a + b) := by
  change (BitVec.ofInt 32 ((BitVec.ofInt 32 a).toInt + (BitVec.ofInt 32 b).toInt)).toInt =
    (BitVec.ofInt 32 (a + b)).toInt
  rw [BitVec.ofInt_add, BitVec.ofInt_toInt, BitVec.ofInt_toInt, BitVec.ofInt_add]

/-- So may differences. -/
theorem wrap_sub :
    Kind.int32.wrap (Kind.int32.wrap a - Kind.int32.wrap b) = Kind.int32.wrap (a - b) := by
  calc Kind.int32.wrap (Kind.int32.wrap a - Kind.int32.wrap b)
      = Kind.int32.wrap (Kind.int32.wrap (Kind.int32.wrap a) +
          Kind.int32.wrap (-Kind.int32.wrap b)) := by rw [wrap_add, Int.sub_eq_add_neg]
    _ = Kind.int32.wrap (Kind.int32.wrap a + Kind.int32.wrap (-b)) := by
        rw [wrap_neg, wrap_of_inRange (inRange_wrap .int32 a)]
    _ = Kind.int32.wrap (a - b) := by rw [wrap_add, Int.sub_eq_add_neg]

/-- So may products, in one factor. -/
theorem wrap_mul_left : Kind.int32.wrap (Kind.int32.wrap a * b) = Kind.int32.wrap (a * b) := by
  change (BitVec.ofInt 32 ((BitVec.ofInt 32 a).toInt * b)).toInt = (BitVec.ofInt 32 (a * b)).toInt
  rw [BitVec.ofInt_mul, BitVec.ofInt_toInt, BitVec.ofInt_mul]

/-- And in both. -/
theorem wrap_mul :
    Kind.int32.wrap (Kind.int32.wrap a * Kind.int32.wrap b) = Kind.int32.wrap (a * b) := by
  rw [wrap_mul_left, Int.mul_comm, wrap_mul_left, Int.mul_comm]

variable {a b}

/-- An outcome in range is cut to itself. -/
theorem map_wrap_of_inRange (h : ∀ n, x = .ok n → k.InRange n) : x.map k.wrap = x := by
  cases x with
  | error p => rfl
  | ok n => exact congrArg Except.ok (wrap_of_inRange (h n rfl))

/-- A whole result has the low half that Go has, if the operands have it; those of a quotient have
to be in range. -/
theorem map_wrap_exact {op : BinaryOp} (hop : op ∈ uncutOps)
    (hquo : op = .quo → Kind.int32.InRange a ∧ Kind.int32.InRange b) :
    (op.exact .int64 a b).map Kind.int32.wrap =
      (op.exact .int32 (Kind.int32.wrap a) (Kind.int32.wrap b)).map Kind.int32.wrap := by
  -- Sum, difference and product go on modulo the width; a quotient needs its operands in range.
  cases op
  case add => exact congrArg Except.ok (wrap_add a b).symm
  case sub => exact congrArg Except.ok (wrap_sub a b).symm
  case mul => exact congrArg Except.ok (wrap_mul a b).symm
  case quo =>
    rw [wrap_of_inRange (hquo rfl).1, wrap_of_inRange (hquo rfl).2]
    rfl
  all_goals exact absurd hop (by decide)

/-- A shift to the left goes on modulo the width as well. -/
theorem map_wrap_exact_shl :
    (BinaryOp.shl.exact .int64 a b).map Kind.int32.wrap =
      (BinaryOp.shl.exact .int32 (Kind.int32.wrap a) b).map Kind.int32.wrap := by
  change (shifted b fun count => a * 2 ^ count).map Kind.int32.wrap =
    (shifted b fun count => Kind.int32.wrap a * 2 ^ count).map Kind.int32.wrap
  unfold shifted
  split
  · exact congrArg Except.ok (wrap_mul_left a _).symm
  · rfl

end

/-! ### What is computed -/

section

variable (env : Env) (s : FunctionState) (σ : Object → Int)

/-- What a cell is left with: the whole result, or nothing if a constant count shifts all of the kind
out. -/
def leftInCell (op : BinaryOp) (count : Expr) (n : Int) : Int :=
  if op = .shl ∧ env.shiftsOut s .int32 count then 0 else Kind.int64.wrap n

mutual

/-- **What emitted code computes.** An expression of `int32` is computed in whole cells; any other
expression is the integer that it is for Go. -/
def Expr.uncut (e : Expr) : Except Panic Int :=
  if env.kind? s e.id ≠ some .int32 then e.integer env s σ
  else knownOr (env.constant? s e.id) Constant.toInt? <|
    match e with
    | .ident n _ => held σ (env.binding s n.id).object?
    | .selector _ _ sel => held σ (env.binding s sel.id).object?
    | .paren _ inner => inner.uncut
    | .unary _ op operand =>
      (do op.exact (← operand.uncut) : Except Panic Int).map Kind.int64.wrap
    | .binary _ op left right =>
      (do
        let a ← left.uncut
        op.exact .int64 a (← right.uncut) : Except Panic Int).map (leftInCell env s op right)
    | .call _ _ args _ => (firstUncut args).map Kind.int64.wrap
    | _ => .error .meaningless
termination_by structural e

/-- What is computed for the first of several expressions. -/
def firstUncut (es : List Expr) : Except Panic Int :=
  match es with
  | [] => .error .meaningless
  | e :: _ => e.uncut
termination_by structural es

end

/-- What is computed for an expression is in the range of its kind. -/
def Expr.FitsKind (e : Expr) : Prop :=
  ∀ k ∈ env.kind? s e.id, ∀ n, e.uncut env s σ = .ok n → k.InRange n

mutual

/-- **Where whole cells matter.** Wherever an expression of `int32` is computed, the operands of
quotients and the counts of shifts are in range. -/
def Expr.Settled (e : Expr) : Prop :=
  env.Computes s e.id .int32 →
    match e with
    | .paren _ inner => inner.Settled
    | .unary _ _ operand => operand.Settled
    | .binary _ op left right =>
      left.Settled ∧ right.Settled ∧
        (op = .quo → left.FitsKind env s σ ∧ right.FitsKind env s σ) ∧
        (op = .shl → right.FitsKind env s σ)
    | .call _ _ args _ => FirstSettled args
    | _ => True
termination_by structural e

/-- The same for the first of several expressions. -/
def FirstSettled (es : List Expr) : Prop :=
  match es with
  | [] => True
  | e :: _ => e.Settled
termination_by structural es

end

end

section

variable (env : Env) (s : FunctionState) (scope : List Object)

/-- **Expressions of `int32`**, with the expressions of other kinds that they are converted from or
shifted by. -/
inductive Uncut : Expr → Kind → Prop where
  | kept {e : Expr} {k : Kind} (h : Integral env s scope e k) : Uncut e k
  | constant {e : Expr} {n : Int} (hkind : env.kind? s e.id = some .int32)
      (hvalue : (env.constant? s e.id).bind Constant.toInt? = some n)
      (hrange : Kind.int32.InRange n) : Uncut e .int32
  | var {n : Node} {name : String} {obj : Object} (hnode : env.Computes s n.id .int32)
      (hreads : env.Reads s scope n.id name obj .int32) : Uncut (.ident n name) .int32
  | qualified {n m : Node} {base : Expr} {name : String} {obj : Object}
      (hnode : env.Computes s n.id .int32) (hresolved : env.selection? s n.id = none)
      (hreads : env.Reads s scope m.id name obj .int32) :
      Uncut (.selector n base (.ident m name)) .int32
  | paren {n : Node} {inner : Expr} (hnode : env.Computes s n.id .int32)
      (hinner : Uncut inner .int32) : Uncut (.paren n inner) .int32
  | neg {n : Node} {operand : Expr} (hnode : env.Computes s n.id .int32)
      (hoperand : Uncut operand .int32) (hunknown : env.constant? s operand.id = none) :
      Uncut (.unary n .neg operand) .int32
  | binary {n : Node} {op : BinaryOp} {left right : Expr} (hnode : env.Computes s n.id .int32)
      (hop : op ∈ uncutOps) (hleft : Uncut left .int32) (hright : Uncut right .int32) :
      Uncut (.binary n op left right) .int32
  | shift {n : Node} {left right : Expr} {c : Kind} (hnode : env.Computes s n.id .int32)
      (hleft : Uncut left .int32) (hright : Uncut right c) :
      Uncut (.binary n .shl left right) .int32
  | conversion {n : Node} {func value : Expr} {ellipsis : Bool} {c : Kind}
      (hnode : env.Computes s n.id .int32)
      (hfunc : (Lower.isTypeExpr func).runIn env s = (.ok true, s)) (hvalue : Uncut value c) :
      Uncut (.call n func [value] ellipsis) .int32

end

/-! ### Values -/

section

variable {env : Env} {s : FunctionState} {scope : List Object} {σ : Object → Int} {e : Expr}
  {n : Node} {k : Kind}

/-- An expression of another kind is what it is for Go. -/
theorem Integral.uncut (h : Integral env s scope e k) : e.uncut env s σ = e.integer env s σ := by
  have hne : env.kind? s e.id ≠ some .int32 := by
    rw [h.kind]
    rintro ⟨⟩
    exact absurd h.kept (by decide)
  unfold Expr.uncut
  exact if_pos hne

/-- A known integer is not computed, and so not cut short. -/
theorem uncut_of_known {value : Int} (h : (env.constant? s e.id).bind Constant.toInt? = some value) :
    e.uncut env s σ = .ok value := by
  unfold Expr.uncut
  split
  · exact integer_of_known h
  · exact knownOr_some h

/-- An expression that is computed when the program runs is computed by its form. -/
theorem uncut_of_computes {computed : Except Panic Int} (h : env.Computes s e.id .int32)
    (hform : e.uncut env s σ = if env.kind? s e.id ≠ some .int32 then e.integer env s σ
      else knownOr (env.constant? s e.id) Constant.toInt? computed) :
    e.uncut env s σ = computed := by
  rw [hform, if_neg (not_not_intro h.kind), knownOr_none h.unknown]

/-- A variable keeps what it stores. -/
theorem uncut_ident (h : env.Computes s n.id .int32) {name : String} {obj : Object}
    (hreads : env.Reads s scope n.id name obj k) :
    (Expr.ident n name).uncut env s σ = .ok (σ obj) := by
  rw [uncut_of_computes h rfl, hreads.binding]
  rfl

/-- So does a variable of another package. -/
theorem uncut_qualified (h : env.Computes s n.id .int32) {base : Expr} {m : Node} {name : String}
    {obj : Object} (hreads : env.Reads s scope m.id name obj k) :
    (Expr.selector n base (.ident m name)).uncut env s σ = .ok (σ obj) := by
  rw [uncut_of_computes h rfl, show (Expr.ident m name).id = m.id from rfl, hreads.binding]
  rfl

/-- Brackets mean what is inside of them. -/
theorem uncut_paren (h : env.Computes s n.id .int32) {inner : Expr} :
    (Expr.paren n inner).uncut env s σ = inner.uncut env s σ :=
  uncut_of_computes h rfl

/-- A sign or a complement, wrapped into the cell only. -/
theorem uncut_unary (h : env.Computes s n.id .int32) {op : UnaryOp} {operand : Expr} :
    (Expr.unary n op operand).uncut env s σ =
      (operand.uncut env s σ >>= fun a => op.exact a).map Kind.int64.wrap :=
  uncut_of_computes h rfl

/-- An operation on cells, wrapped into the cell only. -/
theorem uncut_binary (h : env.Computes s n.id .int32) {op : BinaryOp} {left right : Expr} :
    (Expr.binary n op left right).uncut env s σ =
      (exactOf op .int64 (fun σ => left.uncut env s σ) (fun σ => right.uncut env s σ) σ).map
        (leftInCell env s op right) :=
  uncut_of_computes h rfl

/-- A conversion to this kind changes nothing but what does not fit the cell. -/
theorem uncut_conversion (h : env.Computes s n.id .int32) {func value : Expr} {ellipsis : Bool} :
    (Expr.call n func [value] ellipsis).uncut env s σ =
      (value.uncut env s σ).map Kind.int64.wrap :=
  uncut_of_computes h rfl

/-! ### Ranges -/

/-- An expression left uncut has the kind it is left uncut for. -/
theorem Uncut.kind (h : Uncut env s scope e k) : env.kind? s e.id = some k := by
  cases h with
  | kept h => exact h.kind
  | constant hkind => exact hkind
  | var hnode | qualified hnode | paren hnode | neg hnode | binary hnode | shift hnode
  | conversion hnode => exact hnode.kind

/-- Only a word of this one kind is left uncut: of every other kind the expression is `Integral`. -/
theorem Uncut.integral (h : Uncut env s scope e k) (hk : k ≠ .int32) : Integral env s scope e k := by
  cases h with
  | kept h => exact h
  | _ => exact absurd rfl hk

theorem Uncut.sized (h : Uncut env s scope e k) : k.isSized := by
  cases h with
  | kept h => exact h.sized
  | _ => rfl

/-- The range of the word lies in that of the cell. -/
theorem inRange_cell_of_inRange {m : Int} (h : Kind.int32.InRange m) : Kind.int64.InRange m :=
  inRange_of_rangeContains (k := .int64) (c := .int32) rfl h

/-- What an operation leaves in the cell lies in its range, whether all was shifted out or not. -/
theorem inRange_leftInCell {op : BinaryOp} {count : Expr} {x : Except Panic Int} {m : Int}
    (h : x.map (leftInCell env s op count) = .ok m) : Kind.int64.InRange m := by
  cases x with
  | error p => cases h
  | ok r =>
    obtain rfl := Except.ok.inj h
    unfold leftInCell
    split
    · decide
    · exact inRange_wrap .int64 r

/-- What is computed is in the range of the cell. -/
theorem Uncut.inRange_cell (h : Uncut env s scope e .int32) {config : Config}
    {globals : String → Value} (hstores : Stores config scope globals σ) {m : Int}
    (hm : e.uncut env s σ = .ok m) : Kind.int64.InRange m := by
  -- By induction on how the word is left uncut. Only names rest on the store, which holds what Go
  -- has; every operation wraps its result into the cell.
  generalize hk : Kind.int32 = k at h
  induction h with
  | kept h =>
    have hkept := h.kept
    rw [← hk] at hkept
    cases hkept
  | constant _ hvalue hrange =>
    rw [uncut_of_known hvalue] at hm
    obtain rfl := Except.ok.inj hm
    exact inRange_cell_of_inRange hrange
  | var hnode hreads =>
    rw [uncut_ident hnode hreads] at hm
    obtain rfl := Except.ok.inj hm
    exact inRange_cell_of_inRange ((hstores _ hreads.mem).1 _ hreads.type)
  | qualified hnode _ hreads =>
    rw [uncut_qualified hnode hreads] at hm
    obtain rfl := Except.ok.inj hm
    exact inRange_cell_of_inRange ((hstores _ hreads.mem).1 _ hreads.type)
  | paren hnode _ ih =>
    rw [uncut_paren hnode] at hm
    exact ih hm rfl
  | neg hnode =>
    rw [uncut_unary hnode] at hm
    exact inRange_of_map_wrap hm
  | binary hnode | shift hnode =>
    rw [uncut_binary hnode] at hm
    exact inRange_leftInCell hm
  | conversion hnode =>
    rw [uncut_conversion hnode] at hm
    exact inRange_of_map_wrap hm

/-- What an expression left uncut comes to stays in the cell in every state the scope stores. -/
theorem Uncut.staysIn (h : Uncut env s scope e .int32) :
    StaysIn env scope .int64 fun σ => e.uncut env s σ :=
  fun _ _ hstores _ hm => h.inRange_cell hstores hm

/-- What is computed is in some range in any case. -/
theorem Uncut.exists_staysIn (h : Uncut env s scope e k) :
    ∃ c, StaysIn env scope c fun σ => e.uncut env s σ := by
  by_cases hk : k = .int32
  · subst hk
    exact ⟨_, h.staysIn⟩
  · simp only [(h.integral hk).uncut]
    exact ⟨_, (h.integral hk).staysIn⟩

/-! ### How far it is from what the program means -/

theorem leftInCell_of_mem {op : BinaryOp} {count : Expr} (hop : op ∈ uncutOps) :
    leftInCell env s op count = Kind.int64.wrap := by
  funext m
  refine if_neg ?_
  rintro ⟨rfl, -⟩
  exact absurd hop (by decide)

/-- A shift by a known count of the width or more leaves nothing in the cell. -/
theorem leftInCell_shiftedOut {count : Expr} (hout : env.shiftsOut s .int32 count) :
    leftInCell env s .shl count = fun _ => 0 := by
  funext m
  exact if_pos ⟨rfl, hout⟩

/-- Every other shift is wrapped into the cell. -/
theorem leftInCell_shifted {count : Expr} (hin : env.shiftsOut s .int32 count = false) :
    leftInCell env s .shl count = Kind.int64.wrap := by
  funext m
  refine if_neg ?_
  rintro ⟨-, hout⟩
  exact Bool.false_ne_true (hin.symm.trans hout)

/-- What stays in the cell of an operation is Go's result once it is cut, if it is so for every pair of
operands. -/
theorem map_wrap_exactOf {op : BinaryOp} {count : Expr} {c : Kind} {x y : Except Panic Int}
    (h : ∀ a b, x = .ok a → y = .ok b →
      ((op.exact .int64 a b).map (leftInCell env s op count)).map Kind.int32.wrap =
        (op.exact .int32 (Kind.int32.wrap a) (c.wrap b)).map Kind.int32.wrap) :
    ((x >>= fun a => y >>= fun b => op.exact .int64 a b).map (leftInCell env s op count)).map
        Kind.int32.wrap =
      (x.map Kind.int32.wrap >>= fun a => y.map c.wrap >>= fun b => op.exact .int32 a b).map
        Kind.int32.wrap := by
  -- A panic of either operand is the result on both sides; with two values it is the hypothesis.
  cases x with
  | error p => rfl
  | ok a =>
    cases y with
    | error p => rfl
    | ok b => exact h a b rfl rfl

/-- What was wrapped into the cell is cut to the word as if it had not been. -/
theorem map_wrap_map_cell (x : Except Panic Int) :
    (x.map Kind.int64.wrap).map Kind.int32.wrap = x.map Kind.int32.wrap := by
  cases x with
  | error p => rfl
  | ok m => exact congrArg Except.ok (wrap_wrap_cell m)

/-- A shift leaves the low half that Go has, by a count in range. Where all of the kind is shifted out,
there is nothing in it for Go either. -/
theorem Uncut.map_wrap_shift {right : Expr} {c : Kind} (hright : Uncut env s scope right c)
    (hcount : right.FitsKind env s σ) {a b : Int} (hb : right.uncut env s σ = .ok b) :
    ((BinaryOp.shl.exact .int64 a b).map (leftInCell env s .shl right)).map Kind.int32.wrap =
      (BinaryOp.shl.exact .int32 (Kind.int32.wrap a) (c.wrap b)).map Kind.int32.wrap := by
  rw [wrap_of_inRange (hcount _ hright.kind b hb)]
  cases hout : env.shiftsOut s .int32 right with
  | true =>
    obtain ⟨n, hn, hwidth⟩ := (Option.any_eq_true ..).mp hout
    rw [uncut_of_known hn] at hb
    obtain rfl := Except.ok.inj hb
    rw [leftInCell_shiftedOut hout, map_wrap_shl (of_decide_eq_true hwidth)]
    simp only [BinaryOp.exact, shifted]
    split <;> rfl
  | false => rw [leftInCell_shifted hout, map_wrap_map_cell, map_wrap_exact_shl]

/-- Of an integer of another kind nothing is cut before it is converted. -/
theorem Uncut.wrap_wrap {value : Expr} {c : Kind} (hvalue : Uncut env s scope value c)
    {globals : String → Value} (hstores : Stores env.config scope globals σ) {a : Int}
    (ha : value.uncut env s σ = .ok a) : Kind.int32.wrap (c.wrap a) = Kind.int32.wrap a := by
  by_cases hc : c = .int32
  · subst hc
    rw [wrap_of_inRange (inRange_wrap .int32 a)]
  · rw [(hvalue.integral hc).uncut] at ha
    rw [wrap_of_inRange ((hvalue.integral hc).inRange hstores ha)]

/-- **The low half of the cell is what Go has**, if whole cells do not matter where they are not in
range. -/
theorem Uncut.map_wrap_uncut (h : Uncut env s scope e k) {globals : String → Value}
    (hstores : Stores env.config scope globals σ) (hsettled : e.Settled env s σ) :
    (e.uncut env s σ).map k.wrap = e.integer env s σ := by
  induction h with
  | kept h =>
    rw [h.uncut]
    exact map_wrap_of_inRange fun m hm => h.inRange hstores hm
  | constant _ hvalue hrange =>
    rw [uncut_of_known hvalue, integer_of_known hvalue]
    exact congrArg Except.ok (wrap_of_inRange hrange)
  | var hnode hreads =>
    rw [uncut_ident hnode hreads, integer_ident hnode hreads]
    exact congrArg Except.ok (wrap_of_inRange ((hstores _ hreads.mem).1 _ hreads.type))
  | qualified hnode _ hreads =>
    rw [uncut_qualified hnode hreads, integer_qualified hnode hreads]
    exact congrArg Except.ok (wrap_of_inRange ((hstores _ hreads.mem).1 _ hreads.type))
  | paren hnode _ ih =>
    rw [uncut_paren hnode, integer_paren hnode]
    exact ih (hsettled hnode)
  | @neg _ operand hnode _ _ ih =>
    rw [uncut_unary hnode, integer_unary hnode, ← ih (hsettled hnode), map_wrap_map_cell]
    cases operand.uncut env s σ with
    | error p => rfl
    | ok a => exact congrArg Except.ok (wrap_neg a).symm
  | binary hnode hop hleft hright ihl ihr =>
    obtain ⟨hl, hr, hquo, -⟩ := hsettled hnode
    rw [uncut_binary hnode, integer_binary hnode, ← ihl hl, ← ihr hr]
    refine map_wrap_exactOf fun a b ha hb => ?_
    -- Only of a quotient the operands have to be in range; the other operators forget the high half.
    rw [leftInCell_of_mem hop, map_wrap_map_cell]
    exact map_wrap_exact hop fun h =>
      ⟨(hquo h).1 _ hleft.kind a ha, (hquo h).2 _ hright.kind b hb⟩
  | shift hnode hleft hright ihl ihr =>
    obtain ⟨hl, hr, -, hcount⟩ := hsettled hnode
    rw [uncut_binary hnode, integer_binary hnode, ← ihl hl, ← ihr hr]
    exact map_wrap_exactOf fun a b _ hb => hright.map_wrap_shift (hcount rfl) hb
  | @conversion _ _ value _ _ hnode _ hvalue ih =>
    rw [uncut_conversion hnode, integer_conversion hnode, ← ih (hsettled hnode), map_wrap_map_cell]
    cases ha : value.uncut env s σ with
    | error p => rfl
    | ok a => exact congrArg Except.ok (hvalue.wrap_wrap hstores ha).symm

end

end GoLua
