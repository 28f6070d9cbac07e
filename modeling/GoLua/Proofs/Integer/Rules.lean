import GoLua.Proofs.Integer.Lowering

/-!
# Rules of integer operators

Each rule of an integer operator is faithful if its operands are: what it writes means the result of
Go. For a rule that cuts, the cut makes the result of Go of an exact result; a rule that does not cut
stays in range.
-/

namespace GoLua

open Lower Template Lua

section

variable {env : Env} {s : FunctionState} {scope : List Object} {self : Lowering}
  {e left right : Expr} {k c : Kind} {op : BinaryOp} {tag : Tag} {α : Type} {toLua : α → Value}
  {outcome : (Object → Int) → Except Panic α} {x y exact : (Object → Int) → Except Panic Int}

/-- What does the same as a faithful computation is faithful. -/
theorem Yields.of_runIn {m m' : LowerM Fragment} (h : Yields env s scope m' toLua outcome)
    (hrun : ∀ ids, m.runIn env (s.withLowered ids) = m'.runIn env (s.withLowered ids)) :
    Yields env s scope m toLua outcome := by
  intro ids
  rw [hrun]
  exact h ids

/-! ### Names -/

/-- A variable is written by its name. -/
theorem yields_identifier {name : String} {obj : Object}
    (hreads : env.Reads s scope e.id name obj k) (hspelled : obj.IsSpelled env.config) :
    Yields env s scope (identifier e name) Value.ofInt fun σ => .ok (σ obj) := by
  intro ids
  refine ⟨_, ids, _, ?_, denotes_objectName hspelled, fun globals σ _ hstores =>
    (hstores obj hreads.mem).2⟩
  rw [runIn_identifier_var (s := s.withLowered ids) hreads.binding hreads.isVar hreads.named,
    hreads.plain]
  rfl

/-- A variable of another package yields what it stores. -/
theorem yields_selector {base : Expr} {m : Node} {name : String} {obj : Object}
    (hresolved : env.selection? s e.id = none) (hreads : env.Reads s scope m.id name obj k)
    (hspelled : obj.IsSpelled env.config) :
    Yields env s scope (selector self e base (.ident m name)) Value.ofInt fun σ => .ok (σ obj) := by
  refine (yields_identifier (e := .ident m name) hreads hspelled).of_runIn fun ids => ?_
  have hselection : (selectionOf e).runIn env (s.withLowered ids) =
      (.ok (env.selection? s e.id), s.withLowered ids) := rfl
  rw [selector, LowerM.runIn_bind_ok hselection, hresolved]
  rfl

/-! ### Two operands -/

/-- The exact outcome of an operator, of which the operands are computed from left to right. -/
def exactOf (op : BinaryOp) (k : Kind) (x y : (Object → Int) → Except Panic Int)
    (σ : Object → Int) : Except Panic Int :=
  x σ >>= fun a => y σ >>= fun b => op.exact k a b

/-- What is evaluated from left to right means what is computed from left to right. -/
theorem Means.both {f g : Int → Value} {compound a b : Exp} {result : Int → Int → Except Panic α}
    {step : (String → Value) → Value → Value → Except Fault Value}
    (hx : StaysIn env scope k x) (hy : StaysIn env scope c y) (ha : Means env scope f a x)
    (hb : Means env scope g b y)
    (heval : ∀ globals, compound.eval globals =
      a.eval globals >>= fun u => b.eval globals >>= fun v => step globals u v)
    (hstep : ∀ globals, Library globals → ∀ m n, k.InRange m → c.InRange n →
      Agrees toLua (result m n) (step globals (f m) (g n))) :
    Means env scope toLua compound fun σ => x σ >>= fun m => y σ >>= fun n => result m n := by
  intro globals σ hlibrary hstores
  -- A fault of the left operand is met first, then one of the right operand, and else the step
  -- decides.
  rw [heval]
  exact (ha hlibrary hstores).bind fun m hm => (hb hlibrary hstores).bind fun n hn =>
    hstep globals hlibrary m n (hx hstores hm) (hy hstores hn)

/-- A rule that writes two operands, the left one first. -/
theorem yields_both {m : LowerM Fragment} (compose : Exp → Exp → Exp)
    (fl : Fills env s scope self .expression left x) (fr : Fills env s scope self tag right y)
    (hwrite : ∀ (ids : List NodeId) {s₁ s₂ : FunctionState} {l r : String} {a b : Exp},
      Puts self env .expression (s.withLowered ids) left l s₁ → Puts self env tag s₁ right r s₂ →
      Tight l.toList a → Tight r.toList b → (∀ c ∈ r.toList.head?, c ≠ '=') →
      ∃ f, m.runIn env (s.withLowered ids) = (.ok f, s₂) ∧ f.Denotes (compose a b))
    (hmeans : ∀ {a b : Exp}, Means env scope Value.ofInt a x → Means env scope Value.ofInt b y →
      Means env scope toLua (compose a b) outcome) :
    Yields env s scope m toLua outcome := by
  intro ids
  -- The right operand is written in the state that the left one leaves.
  obtain ⟨l, ids₁, a, hl, htightl, -, hmeansl⟩ := fl ids
  obtain ⟨r, ids₂, b, hr, htightr, hhead, hmeansr⟩ := fr ids₁
  obtain ⟨f, hrun, hf⟩ := hwrite ids hl hr htightl htightr fun c hc => (hhead c hc).1
  exact ⟨f, ids₂, _, hrun, hf, hmeans hmeansl hmeansr⟩

/-- A token that Lua has as well, with blanks around it. -/
theorem toList_token {native : Lua.Binary} (h : op.native? = some native) :
    (" " ++ op.luaToken ++ " ").toList = ' ' :: (native.spelling ++ [' ']) := by
  rw [spelling_native h]
  simp [String.toList_append]

/-! ### Cutting -/

/-- A rule that cuts an exact result. -/
theorem Yields.cut {m : LowerM Fragment} (hk : k.isKept)
    (h : Yields env s scope m Value.ofInt exact) :
    Yields env s scope (do return cutToWidth (← m) k) Value.ofInt
      fun σ => (exact σ).map k.wrap := by
  intro ids
  obtain ⟨f, ids', a, hrun, hf, hmeans⟩ := h ids
  exact ⟨_, ids', _, LowerM.runIn_bind_ok hrun _, hf.cut k,
    fun globals σ hlibrary hstores => agrees_cut hk (hmeans hlibrary hstores)⟩

/-- A rule whose exact result stays in range. -/
theorem Yields.keep {m : LowerM Fragment} (h : Yields env s scope m Value.ofInt exact)
    (hrange : StaysIn env scope k exact) :
    Yields env s scope m Value.ofInt fun σ => (exact σ).map k.wrap := by
  intro ids
  obtain ⟨f, ids', a, hrun, hf, hmeans⟩ := h ids
  exact ⟨f, ids', a, hrun, hf, fun globals σ hlibrary hstores =>
    (hmeans hlibrary hstores).map_self fun n hn => wrap_of_inRange (hrange hstores hn)⟩

/-- What an exact operation on integers in range gives is in range, for the operators that need no
cut. -/
theorem staysIn_exactOf (hx : StaysIn env scope k x) (hop : op ∈ stayingOps) :
    StaysIn env scope k (exactOf op k x y) := by
  intro globals σ hstores n h
  unfold exactOf at h
  -- A panic of either operand is a panic of the whole, so there is no result to show anything of.
  cases hl : x σ with
  | error p =>
    rw [hl] at h
    cases h
  | ok a =>
    cases hr : y σ with
    | error p =>
      rw [hl, hr] at h
      cases h
    | ok b =>
      rw [hl, hr] at h
      exact inRange_exact hop (hx hstores hl) h

/-! ### Arithmetic -/

section Arithmetic

variable (hx : StaysIn env scope k x) (hy : StaysIn env scope k y)
  (fl : Fills env s scope self .expression left x) (fr : Fills env s scope self .expression right y)

include hx hy fl fr

/-- An operator that Lua has as well yields the exact result, up to the cell. -/
theorem yields_plainOperator {native : Lua.Binary} (hnative : op.native? = some native)
    (hop : op ∈ arithmeticOps) :
    Yields env s scope (plainOperator self op left right) Value.ofInt
      (exactOf op k x y) := by
  refine yields_both (.binary native) fl fr (fun ids s₁ s₂ l r a b hl hr htl htr _ => ?_)
    fun ha hb => ?_
  · exact ⟨_, runIn_plainOperator hl hr op,
      .operation (whole_binary htl htr (toList_token hnative))⟩
  · exact ha.both hx hy hb (fun _ => eval_binary native (not_connective_native hnative))
      fun _ _ m n hm hn => agrees_native hnative hop hm hn

/-- Bits that are cleared: the complement is written with the right operand. -/
theorem yields_andNot :
    Yields env s scope (renderParen self "%e & ~%e" [left, right]) Value.ofInt
      (exactOf .andNot k x y) := by
  refine yields_both (fun a b => .binary .bitAnd a (.unary .bitNot b)) fl fr
    (fun ids s₁ s₂ l r a b hl hr htl htr hhead => ?_) fun ha hb => ?_
  · have htext : l ++ " & ~" ++ r = l ++ " & " ++ ("~" ++ r) :=
      String.toList_inj.mp (by simp [String.toList_append])
    refine ⟨_, runIn_andNot hl hr, .operation ?_⟩
    rw [htext]
    exact whole_binary htl (tight_bitNot htr hhead) rfl
  · -- The complement goes with the right operand, as a cell that is no integer of the kind.
    have hnot {b : Exp} (hb : Means env scope Value.ofInt b y) :
        Means env scope (fun n => .integer (~~~cell n)) (.unary .bitNot b) y := by
      intro globals σ hlibrary hstores
      rw [eval_unary]
      exact (hb hlibrary hstores).through fun _ => rfl
    exact ha.both hx hy (hnot hb) (fun _ => eval_binary .bitAnd (by decide))
      fun _ _ m n hm hn => agrees_andNot hm hn

/-- Quotients and remainders, by a function of the library. -/
theorem yields_dividing (helper : String) {f : BitVec 64 → BitVec 64 → BitVec 64}
    {result : Int → Int → Int} (hname : isName helper)
    (hparse : parse 2 (helper ++ "(%e, %e)") = .ok [.literal (helper.toList ++ ['(']),
      .placeholder [] 0 .expression, .literal [',', ' '], .placeholder [] 1 .expression,
      .literal [')']])
    (hlibrary : ∀ {globals}, Library globals → globals helper = dividing f)
    (hf : ∀ {m n}, k.InRange m → k.InRange n → f (cell m) (cell n) = cell (result m n))
    (hexact : ∀ m n, op.exact k m n = divided n (result m n)) :
    Yields env s scope (binaryCall self helper left right) Value.ofInt
      (exactOf op k x y) := by
  refine yields_both (fun a b => .call (.name helper) [a, b]) fl fr
    (fun ids s₁ s₂ l r a b hl hr htl htr _ => ?_) fun ha hb => ?_
  -- A call of the library, with both operands lowered once.
  · have honce : [0, 1].Nodup := by decide
    exact ⟨_, runIn_call _ hparse honce hl hr, denotes_call hname htl.whole htr.whole⟩
  -- The library divides as the operator does, by zero as well.
  · refine ha.both hx hy hb (fun _ => eval_call helper) fun globals hglobals m n hm hn => ?_
    rw [hlibrary hglobals, hexact]
    exact agrees_dividing hn (hf hm hn)

end Arithmetic

/-- Every rule of arithmetic cuts its exact result or stays in range. -/
theorem yields_integerArithmetic (hkept : k.isKept) (hx : StaysIn env scope k x)
    (hy : StaysIn env scope k y) (fl : Fills env s scope self .expression left x)
    (fr : Fills env s scope self .expression right y) (hop : op ∈ arithmeticOps) :
    Yields env s scope (integerArithmetic self e op left right k) Value.ofInt
      fun σ => (exactOf op k x y σ).map k.wrap := by
  -- The split follows the rule: by what it writes, and by whether it cuts.
  cases op
  case add | sub | mul => exact (yields_plainOperator hx hy fl fr rfl hop).cut hkept
  case and | or | xor =>
    exact (yields_plainOperator hx hy fl fr rfl hop).keep (staysIn_exactOf hx (by decide))
  case andNot =>
    exact (yields_andNot hx hy fl fr).keep (staysIn_exactOf hx (by decide))
  case quo =>
    -- The least integer divided by minus one leaves the range, so quotients are cut.
    unfold integerArithmetic
    by_cases hk : k = .uint64
    · subst hk
      exact (yields_dividing hx hy fl fr Support.uintDiv rfl rfl
        (fun h => h.uintDiv) (fun hm hn => udiv_cell hm hn rfl) fun _ _ => rfl).cut hkept
    · simp only [if_neg hk]
      exact (yields_dividing hx hy fl fr Support.intDiv rfl rfl
        (fun h => h.intDiv) (fun hm hn => sdiv_cell hm hn hk) fun _ _ => rfl).cut hkept
  case rem =>
    refine Yields.keep ?_ (staysIn_exactOf hx (show .rem ∈ stayingOps by decide))
    unfold integerArithmetic
    by_cases hk : k = .uint64
    · subst hk
      exact yields_dividing hx hy fl fr Support.uintMod rfl rfl
        (fun h => h.uintMod) (fun hm hn => umod_cell hm hn rfl) fun _ _ => rfl
    · simp only [if_neg hk]
      exact yields_dividing hx hy fl fr Support.intMod rfl rfl
        (fun h => h.intMod) (fun hm hn => srem_cell hm hn hk) fun _ _ => rfl
  all_goals exact absurd hop (by decide)

/-- The rule of an operator is that of the kind of its node. -/
theorem Yields.arithmetic (hkind : env.kind? s e.id = some k) (hk : k.isSized)
    (h : Yields env s scope (integerArithmetic self e op left right k) toLua outcome) :
    Yields env s scope (Lower.arithmetic self e op left right) toLua outcome := by
  obtain ⟨type, htype, hbasic⟩ := exists_type_of_kind hkind
  -- Of the families of kinds this is the last one that is asked for.
  have hclass : k.isString = false ∧ k.isComplex = false ∧ k.isFloat = false ∧ k.isInteger := by
    revert hk
    cases k <;> decide
  have hrule : arithmeticOn self e op left right type k =
      integerArithmetic self e op left right k := by
    simp [arithmeticOn, hclass]
  refine h.of_runIn fun ids => ?_
  rw [Lower.arithmetic, LowerM.runIn_bind_ok (runIn_typeOf_withLowered htype ids), hbasic]
  dsimp only
  rw [hrule]

/-! ### Shifts -/

section Shift

variable (hx : StaysIn env scope k x) (hy : StaysIn env scope c y)
  (fl : Fills env s scope self .expression left x) (fr : Fills env s scope self .folded right y)

include hx hy fl fr

/-- A shift to the left yields the exact result, up to the cell. -/
theorem yields_shiftedLeft :
    Yields env s scope (renderParen self "%e << %f" [left, right]) Value.ofInt
      (exactOf .shl k x y) := by
  refine yields_both (.binary .shiftLeft) fl fr
    (fun ids s₁ s₂ l r a b hl hr htl htr _ => ?_) fun ha hb => ?_
  · exact ⟨_, runIn_shiftedLeft hl hr, .operation (whole_binary htl htr rfl)⟩
  · exact ha.both hx hy hb (fun _ => eval_binary .shiftLeft (by decide))
      fun _ _ m n _ _ => agrees_shiftLeft

/-- Without a sign a shift to the right is a shift of the cell. -/
theorem yields_shiftedRight (hk : k.isUnsigned) :
    Yields env s scope (renderParen self "%e >> %f" [left, right]) Value.ofInt
      (exactOf .shr k x y) := by
  refine yields_both (.binary .shiftRight) fl fr
    (fun ids s₁ s₂ l r a b hl hr htl htr _ => ?_) fun ha hb => ?_
  · exact ⟨_, runIn_shiftedRight hl hr, .operation (whole_binary htl htr rfl)⟩
  · exact ha.both hx hy hb (fun _ => eval_binary .shiftRight (by decide))
      fun _ _ m n hm _ => agrees_shiftRight hm hk

/-- With a sign it is a call of the library. -/
theorem yields_arshift (hk : k.isUnsigned = false) :
    Yields env s scope (render self (Support.arshift ++ "(%e, %f)") [left, right]) Value.ofInt
      (exactOf .shr k x y) := by
  refine yields_both (fun a b => .call (.name Support.arshift) [a, b]) fl fr
    (fun ids s₁ s₂ l r a b hl hr htl htr _ => ?_) fun ha hb => ?_
  · have honce : [0, 1].Nodup := by decide
    exact ⟨_, runIn_call Support.arshift.toList rfl honce hl hr,
      denotes_call rfl htl.whole htr.whole⟩
  · exact ha.both hx hy hb (fun _ => eval_call Support.arshift)
      fun _ hlibrary m n hm _ => agrees_arshift hlibrary hm hk

end Shift

/-- What may be written again has a value. -/
theorem Integral.exists_integer (h : Integral env s scope e k)
    (hrepeatable : e.unparen.isIdent ∨ (env.constant? s e.id).isSome) (σ : Object → Int) :
    ∃ n, e.integer env s σ = .ok n := by
  have hunknown {id : NodeId} {k : Kind} (h : env.Computes s id k) :
      (env.constant? s id).isSome = false := by
    rw [h.unknown]
    rfl
  -- Only what is a name or a constant may be repeated, and neither can panic.
  induction h with
  | constant _ _ hvalue => exact ⟨_, integer_of_known hvalue⟩
  | var hnode _ hreads => exact ⟨_, integer_ident hnode hreads⟩
  | paren hnode _ ih =>
    rw [integer_paren hnode]
    refine ih (.inl (hrepeatable.resolve_right fun h => ?_))
    exact Bool.false_ne_true ((hunknown hnode).symm.trans h)
  -- Whatever else there is is neither, brackets aside.
  | qualified hnode | unary hnode | binary hnode | shift hnode | conversion hnode =>
    rcases hrepeatable with h | h
    · cases h
    · exact absurd ((hunknown hnode).symm.trans h) Bool.false_ne_true

/-- What may be repeated is told by the form, and by what is known. -/
theorem runIn_isRepeatableExpr (ids : List NodeId) :
    (isRepeatableExpr e).runIn env (s.withLowered ids) =
      (.ok (e.unparen.isIdent || (env.constant? s e.id).isSome), s.withLowered ids) := by
  unfold isRepeatableExpr
  cases e.unparen.isIdent <;> rfl

/-- A shift of which nothing is left, by a constant count: the operand is evaluated unless it is known
to have a value. -/
theorem yields_shiftedOut (fl : Fills env s scope self .expression left x) {n : Int}
    (hcount : ∀ σ, y σ = .ok n)
    (hvalue : left.unparen.isIdent ∨ (env.constant? s left.id).isSome → ∀ σ, ∃ m, x σ = .ok m) :
    Yields env s scope (do
        if ← isRepeatableExpr left then return .atom "0" else renderParen self "%e & 0" [left])
      Value.ofInt fun σ => (exactOf .shl k x y σ).map fun _ => 0 := by
  -- The text is `0` where the operand may be repeated, and else the operand with all bits masked
  -- away.
  have hzero : Tight "0".toList (.integer 0) := tight_toString (n := 0) (by decide)
  have hexact (σ : Object → Int) : ((exactOf .shl k x y σ).map fun _ => (0 : Int)) =
      x σ >>= fun m => (BinaryOp.shl.exact k m n).map fun _ => 0 := by
    rw [exactOf, hcount]
    cases x σ <;> rfl
  intro ids
  rw [LowerM.runIn_bind_ok (runIn_isRepeatableExpr ids)]
  by_cases hrepeatable : left.unparen.isIdent || (env.constant? s left.id).isSome
  · refine ⟨.atom "0", ids, .integer 0, by rw [if_pos hrepeatable]; rfl,
      .atom hzero (by rintro c ⟨⟩; decide), fun globals σ _ _ => ?_⟩
    -- Nothing of the operand is evaluated, which is right as it cannot panic.
    obtain ⟨m, hm⟩ := hvalue (by simpa using hrepeatable) σ
    change Agrees Value.ofInt ((exactOf .shl k x y σ).map fun _ => 0) _
    rw [hexact, hm]
    exact agrees_shiftedOut
  -- The operand is still evaluated, and so its panics are kept.
  · obtain ⟨l, ids', a, hl, htl, -, hmeans⟩ := fl ids
    refine ⟨.operation (l ++ " & 0"), ids', .binary .bitAnd a (.integer 0), ?_, .operation ?_,
      fun globals σ hlibrary hstores => ?_⟩
    · rw [if_neg hrepeatable]
      exact runIn_cleared hl
    · have htext : l ++ " & 0" = l ++ " & " ++ "0" := by
        rw [String.append_assoc]
        rfl
      rw [htext]
      exact whole_binary htl hzero rfl
    · simp only [hexact, eval_binary .bitAnd (by decide)]
      refine (hmeans hlibrary hstores).bind fun m _ => ?_
      have hnothing : Binary.bitAnd.apply (.ofInt m) (.integer 0) = .ok (.ofInt 0) :=
        congrArg (Except.ok ∘ Value.integer) BitVec.and_zero
      change Agrees Value.ofInt _ (Binary.bitAnd.apply (.ofInt m) (.integer 0))
      rw [hnothing]
      exact agrees_shiftedOut

/-- Whether a count is constant and not below the width of a kind. -/
def Env.shiftsOut (env : Env) (s : FunctionState) (k : Kind) (count : Expr) : Bool :=
  ((env.constant? s count.id).bind Constant.toInt?).any ((k.width : Int) ≤ ·)

/-- A shift to the left, by whether it leaves anything. -/
theorem yields_shiftLeft
    (hout : env.shiftsOut s k right → Yields env s scope (do
        if ← isRepeatableExpr left then return .atom "0" else renderParen self "%e & 0" [left])
      toLua outcome)
    (hin : env.shiftsOut s k right = false → Yields env s scope (do
        return cutToWidth (← renderParen self "%e << %f" [left, right]) k) toLua outcome) :
    Yields env s scope (Lower.shiftLeft self left right k) toLua outcome := by
  have hcount (ids : List NodeId) : (intConstantOf right).runIn env (s.withLowered ids) =
      (.ok ((env.constant? s right.id).bind Constant.toInt?), s.withLowered ids) := rfl
  -- Which text is written is decided by the count, if it is known.
  by_cases h : env.shiftsOut s k right
  · refine (hout h).of_runIn fun ids => ?_
    unfold Env.shiftsOut Kind.width at h
    rw [Lower.shiftLeft, LowerM.runIn_bind_ok (hcount ids), if_pos h]
  · refine (hin (Bool.eq_false_iff.mpr h)).of_runIn fun ids => ?_
    unfold Env.shiftsOut Kind.width at h
    rw [Lower.shiftLeft, LowerM.runIn_bind_ok (hcount ids), if_neg h]

/-- Shifts, with a count that is known or computed. -/
theorem yields_shift (hleft : Integral env s scope left k) (hright : Integral env s scope right c)
    (fl : Fills env s scope self .expression left fun σ => left.integer env s σ)
    (fr : Fills env s scope self .folded right fun σ => right.integer env s σ)
    (hop : op ∈ shiftOps) :
    Yields env s scope (integerArithmetic self e op left right k) Value.ofInt fun σ =>
      (exactOf op k (fun σ => left.integer env s σ) (fun σ => right.integer env s σ) σ).map
        k.wrap := by
  have hx := hleft.staysIn
  have hy := hright.staysIn
  cases op
  case shl =>
    refine yields_shiftLeft (fun hout => ?_) fun _ => (yields_shiftedLeft hx hy fl fr).cut hleft.kept
    -- A known count that is not below the width: the exact result is zero, or the panic of the left
    -- operand.
    obtain ⟨n, hn, hwidth⟩ := (Option.any_eq_true ..).mp hout
    have hcount (σ : Object → Int) : right.integer env s σ = .ok n := integer_of_known hn
    have hsame (σ : Object → Int) :
        (exactOf .shl k (fun σ => left.integer env s σ) (fun σ => right.integer env s σ) σ).map
          k.wrap =
        (exactOf .shl k (fun σ => left.integer env s σ) (fun σ => right.integer env s σ) σ).map
          fun _ => 0 := by
      simp only [exactOf, hcount]
      cases left.integer env s σ with
      | error p => rfl
      | ok m => exact map_wrap_shl (of_decide_eq_true hwidth)
    simp only [hsame]
    exact yields_shiftedOut fl hcount hleft.exists_integer
  case shr =>
    refine Yields.keep ?_ (staysIn_exactOf hx (show .shr ∈ stayingOps by decide))
    unfold integerArithmetic
    -- The sign of the kind decides which shift is written.
    cases hk : k.isUnsigned with
    | true => exact yields_shiftedRight hx hy fl fr hk
    | false => exact yields_arshift hx hy fl fr hk
  all_goals exact absurd hop (by decide)

/-! ### Order -/

/-- Lua's least integer by its name. -/
def Lua.leastExp : Exp :=
  .field (.name "math") "mininteger"

/-- The least number of the cell is written by its name in the library. -/
theorem tight_leastExp : Tight "math.mininteger".toList leastExp :=
  ⟨[], _, true, rfl, fun _ => rfl⟩

/-- Its value is taken from the library. -/
theorem eval_leastExp {globals : String → Value} (hlibrary : Library globals) :
    leastExp.eval globals = .ok (.integer (BitVec.intMin 64)) := by
  obtain ⟨math, hmath, hfield⟩ := hlibrary.minInteger
  change Value.entry (.name "mininteger") (globals "math") = _
  rw [hmath, Value.entry, hfield]

/-- A cell with its sign bit turned over. -/
theorem Means.flipped {a : Exp} (h : Means env scope Value.ofInt a fun σ => e.integer env s σ) :
    Means env scope (fun n => .integer (cell n ^^^ BitVec.intMin 64)) (.binary .bitXor a leastExp)
      fun σ => e.integer env s σ := by
  intro globals σ hlibrary hstores
  rw [eval_binary .bitXor (by decide), eval_leastExp hlibrary]
  exact (h hlibrary hstores).through fun _ => rfl

/-- An ordering of two operands with their sign bits turned over. -/
theorem whole_flipped {l r : String} {a b : Exp} {native : Lua.Binary}
    (hnative : op.native? = some native) (hl : Tight l.toList a) (hr : Tight r.toList b) :
    Whole ("(" ++ l ++ (" ~ math.mininteger) " ++ op.luaToken ++ " (") ++ r ++
        " ~ math.mininteger)").toList
      (.binary native (.binary .bitXor a leastExp) (.binary .bitXor b leastExp)) := by
  have htext : ("(" ++ l ++ (" ~ math.mininteger) " ++ op.luaToken ++ " (") ++ r ++
        " ~ math.mininteger)").toList =
      (Text.parenthesized (l ++ " ~ " ++ "math.mininteger") ++ (" " ++ op.luaToken ++ " ") ++
        Text.parenthesized (r ++ " ~ " ++ "math.mininteger")).toList := by
    simp [Text.parenthesized, String.toList_append]
  -- Each operand stands in brackets with its sign bit turned over.
  have hflip {t : String} {x : Exp} (h : Tight t.toList x) :
      Tight (Text.parenthesized (t ++ " ~ " ++ "math.mininteger")).toList
        (.binary .bitXor x leastExp) := by
    rw [toList_parenthesized]
    exact (whole_binary h tight_leastExp rfl).paren
  rw [htext]
  exact whole_binary (hflip hl) (hflip hr) (toList_token hnative)

/-- An ordering yields the exact comparison, because cells in range are ordered as their numbers
are. -/
theorem yields_ordering (hleft : Integral env s scope left k) (hright : Integral env s scope right k)
    (fl : Fills env s scope self .expression left fun σ => left.integer env s σ)
    (fr : Fills env s scope self .expression right fun σ => right.integer env s σ)
    {native : Lua.Binary} (hnative : op.native? = some native)
    (hop : op ∈ orderingOps) :
    Yields env s scope (ordering self op left right) Value.truth fun σ =>
      left.integer env s σ >>= fun a => right.integer env s σ >>= fun b => op.compare a b := by
  obtain ⟨type, htype, hbasic⟩ := exists_type_of_kind hleft.kind
  by_cases hk : k = .uint64
  · -- Both operands have their sign bits turned over.
    subst hk
    refine yields_both (fun a b =>
        .binary native (.binary .bitXor a leastExp) (.binary .bitXor b leastExp)) fl fr
      (fun ids s₁ s₂ l r a b hl hr htl htr _ => ?_) fun ha hb => ?_
    · exact ⟨_, runIn_ordering_uint64 (s := s.withLowered ids) htype hbasic hl hr op,
        .operation (whole_flipped hnative htl htr)⟩
    · exact ha.flipped.both hleft.staysIn hright.staysIn hb.flipped
        (fun _ => eval_binary native (not_connective_native hnative)) fun _ _ m n hm hn =>
          agrees_ordering hnative hop (slt_cell_xor hm hn) (slt_cell_xor hn hm)
  -- In any other kind the cells compare as signed numbers.
  · refine yields_both (.binary native) fl fr
      (fun ids s₁ s₂ l r a b hl hr htl htr _ => ?_) fun ha hb => ?_
    · have hsigned : type.basicKind? ≠ some .uint64 := by
        rw [hbasic]
        exact fun h => hk (Option.some.inj h)
      exact ⟨_, runIn_ordering (s := s.withLowered ids) htype hsigned hl hr op,
        .operation (whole_binary htl htr (toList_token hnative))⟩
    · exact ha.both hleft.staysIn hright.staysIn hb (fun _ => eval_binary native (not_connective_native hnative))
        fun _ _ m n hm hn => agrees_ordering hnative hop (slt_cell hm hn hk) (slt_cell hn hm hk)

/-! ### One operand -/

/-- A sign or a complement before an operand that is no literal. -/
theorem yields_signed {op : UnaryOp} {native : Lua.Unary} {m : LowerM Fragment} {sign : String}
    {operand : Expr} (fills : Fills env s scope self .expression operand x)
    (hwrite : ∀ (ids : List NodeId) {text : String} {s' : FunctionState},
      Puts self env .expression (s.withLowered ids) operand text s' →
      m.runIn env (s.withLowered ids) = (.ok (.operation (sign ++ text)), s'))
    (htight : ∀ {text : String} {a : Exp}, Tight text.toList a →
      (∀ c ∈ text.toList.head?, c ≠ '=' ∧ (env.constant? s operand.id = none → c ≠ '-')) →
      Tight (sign ++ text).toList (.unary native a))
    (hagree : ∀ n, Agrees Value.ofInt (op.exact n) (native.apply (.ofInt n))) :
    Yields env s scope m Value.ofInt fun σ => x σ >>= fun a => op.exact a := by
  intro ids
  obtain ⟨text, ids', a, hput, ht, hhead, hmeans⟩ := fills ids
  refine ⟨_, ids', _, hwrite ids hput, .operation (htight ht hhead).whole,
    fun globals σ hlibrary hstores => ?_⟩
  -- One operand, one sign before it; the step on the cell is given.
  rw [eval_unary]
  exact (hmeans hlibrary hstores).bind fun n _ => hagree n

/-- An operator with one operand, which is not known. -/
theorem yields_unary {op : UnaryOp} {operand : Expr} (hop : op ∈ [.plus, .neg, .bitNot])
    (hoperand : Integral env s scope operand k) (hunknown : env.constant? s operand.id = none)
    (h : Yields env s scope (self operand none) Value.ofInt fun σ => operand.integer env s σ) :
    Yields env s scope (unary self e op operand) Value.ofInt fun σ =>
      (operand.integer env s σ >>= fun a => op.exact a).map k.wrap := by
  obtain ⟨type, htype, hbasic⟩ := exists_type_of_kind hoperand.kind
  have hrun (op : UnaryOp) (ids : List NodeId) : (unaryOperator self e operand op).runIn env
      (s.withLowered ids) = _ :=
    LowerM.runIn_bind_ok (runIn_typeOf_withLowered htype ids) _
  simp only [hbasic] at hrun
  have hfill := (h.fills hunknown).1
  -- A plus is dropped, a minus and a complement are cut to the width.
  cases op
  case plus =>
    have hplus (σ : Object → Int) : (operand.integer env s σ >>= fun a => UnaryOp.plus.exact a) =
        operand.integer env s σ := by
      cases operand.integer env s σ <;> rfl
    simp only [hplus]
    exact (h.keep hoperand.staysIn).of_runIn (hrun .plus)
  case neg =>
    have hcomplex : k.isComplex = false := by
      have hkept := hoperand.kept
      revert hkept
      cases k <;> decide
    have hneg : Yields env s scope (renderParen self "-%e" [operand]) Value.ofInt fun σ =>
        operand.integer env s σ >>= fun a => UnaryOp.neg.exact a :=
      yields_signed hfill (fun ids _ _ hput => runIn_neg hput)
        (fun ht hhead => tight_neg ht fun c hc => (hhead c hc).2 hunknown)
        fun n => congrArg (Except.ok ∘ Value.integer) cell_neg.symm
    refine (hneg.cut hoperand.kept).of_runIn fun ids => (hrun .neg ids).trans ?_
    simp only [hcomplex]
    rfl
  case bitNot =>
    have hnot : Yields env s scope (renderParen self "~%e" [operand]) Value.ofInt fun σ =>
        operand.integer env s σ >>= fun a => UnaryOp.bitNot.exact a :=
      yields_signed hfill (fun ids _ _ hput => runIn_bitNot hput)
        (fun ht hhead => tight_bitNot ht fun c hc => (hhead c hc).1)
        fun n => congrArg (Except.ok ∘ Value.integer) cell_not.symm
    exact (hnot.cut hoperand.kept).of_runIn (hrun .bitNot)
  all_goals exact absurd hop (by decide)

/-! ### Conversions -/

/-- Every integer of a kind is in the range of a kind that contains it. -/
theorem inRange_of_rangeContains (h : rangeContains k c) {n : Int} (hn : c.InRange n) :
    k.InRange n := by
  unfold rangeContains at h
  split at h
  · next w v hw hv =>
    have hwidth : k.width = w ∧ c.width = v := by simp [Kind.width, hw, hv]
    have hpow {i j : Nat} (hij : i ≤ j) : (2 : Int) ^ i ≤ 2 ^ j := by
      exact_mod_cast Nat.pow_le_pow_right Nat.two_pos hij
    have hpos (i : Nat) : (0 : Int) < 2 ^ i := by exact_mod_cast Nat.two_pow_pos i
    unfold Kind.InRange Kind.least Kind.limit at hn ⊢
    rw [hwidth.1]
    rw [hwidth.2] at hn
    -- The four cases of the two signs.
    cases hk : k.isUnsigned <;> cases hc : c.isUnsigned <;>
      simp only [hk, hc, decide_eq_true_eq, if_true, Bool.false_eq_true, if_false] at h hn ⊢
    · -- Both have a sign.
      have hle : (2 : Int) ^ (v - 1) ≤ 2 ^ (w - 1) := hpow (by omega)
      omega
    · -- A sign needs a bit more.
      have hle : (2 : Int) ^ v ≤ 2 ^ (w - 1) := hpow (by omega)
      have := hpos (w - 1)
      omega
    · -- Neither has a sign.
      have hle : (2 : Int) ^ v ≤ 2 ^ w := hpow h
      omega
  · cases h

/-- Whether an expression denotes a type does not depend on what is recorded. -/
theorem runIn_isTypeExpr {func : Expr}
    (h : (isTypeExpr func).runIn env s = (.ok true, s)) (ids : List NodeId) :
    (isTypeExpr func).runIn env (s.withLowered ids) = (.ok true, s.withLowered ids) := by
  have hsame : (isTypeExpr func).runIn env (s.withLowered ids) =
      (((isTypeExpr func).runIn env s).1, s.withLowered ids) := by
    unfold isTypeExpr
    -- Only a look at the selection could see the state, and it is not changed by what has been
    -- lowered.
    split
    · rfl
    · rfl
    · next base sel hsel =>
      have hselection (s : FunctionState) : (selectionOf func.unparen).runIn env s =
          (.ok (env.selection? s func.unparen.id), s) := rfl
      rw [LowerM.runIn_bind_ok (hselection _), LowerM.runIn_bind_ok (hselection s),
        show env.selection? (s.withLowered ids) func.unparen.id =
          env.selection? s func.unparen.id from rfl]
      split <;> rfl
    · rfl
  rw [hsame, h]

/-- A conversion between two kinds of integers. -/
theorem yields_toIntegerKind {source target : GoType} (hk : k.isKept) (hc : c.isInteger)
    (hx : StaysIn env scope c x) (hsource : source.basicKind? = some c)
    (h : Yields env s scope (self e none) Value.ofInt x) :
    Yields env s scope (toIntegerKind self e source target k) Value.ofInt
      fun σ => (x σ).map k.wrap := by
  unfold toIntegerKind
  rw [hsource]
  simp only [hc, if_true]
  cases hcontains : rangeContains k c with
  | true =>
    refine (h.keep fun _ _ hstores n hn =>
      inRange_of_rangeContains hcontains (hx hstores hn)).of_runIn fun ids => ?_
    simp
  | false =>
    -- Where the kind needs no cut, the cut is none.
    have hcut (f : Fragment) :
        (if (false || !needsCut k) = true then f else cutToWidth f k) = cutToWidth f k := by
      cases hneeds : needsCut k with
      | true => rfl
      | false => exact (cutToWidth_of_not_needsCut hneeds f).symm
    simp only [hcut]
    exact h.cut hk

/-- A conversion of an integer to another type with a kind is a conversion to the kind. -/
theorem convertFrom_kind {source target : GoType} (hdistinct : source.identical target = false)
    (hsource : source.basicKind? = some c) (hc : c.isSized) (htarget : target.basicKind? = some k) :
    convertFrom self e source target = toKind self e source target k := by
  have huntyped : source.isUntypedNil = false := by
    unfold GoType.isUntypedNil
    split
    · obtain rfl : Kind.untypedNil = c := Option.some.inj hsource
      exact absurd hc (by decide)
    · rfl
  exact convertFrom_of_kind hdistinct huntyped (GoType.underlying_of_basicKind? htarget)

/-- A call of a type is a conversion to the type of the call. -/
theorem runIn_call_conversion {func value : Expr} {ellipsis : Bool} {source target : GoType}
    (hfunc : (isTypeExpr func).runIn env s = (.ok true, s)) (htarget : env.type? s e.id = some target)
    (hsource : env.type? s value.id = some source) :
    (call self e func [value] ellipsis).runIn env s =
      (convertFrom self value source target).runIn env s := by
  rw [call, LowerM.runIn_bind_ok hfunc]
  refine (LowerM.runIn_bind_ok (runIn_typeOf_of_type? htarget) _).trans ?_
  exact LowerM.runIn_bind_ok (runIn_typeOf_of_type? hsource) _

/-- A conversion of an integer: to an identical type, or to the kind of the new type. -/
theorem Yields.conversion {func value : Expr} {ellipsis : Bool}
    (hkind : env.kind? s e.id = some k) (hk : k.isSized)
    (hfunc : (isTypeExpr func).runIn env s = (.ok true, s))
    (hvalue : env.kind? s value.id = some c) (hc : c.isSized)
    (hsame : ∀ source ∈ env.type? s value.id, ∀ target ∈ env.type? s e.id,
      source.identical target → Yields env s scope (self value none) toLua outcome)
    (hinto : ∀ source target, source.basicKind? = some c →
      Yields env s scope (toIntegerKind self value source target k) toLua outcome) :
    Yields env s scope (call self e func [value] ellipsis) toLua outcome := by
  obtain ⟨source, hsource, hsourceKind⟩ := exists_type_of_kind hvalue
  obtain ⟨target, htarget, htargetKind⟩ := exists_type_of_kind hkind
  refine Yields.of_runIn ?_ fun ids => runIn_call_conversion (s := s.withLowered ids)
    (runIn_isTypeExpr hfunc ids) htarget hsource
  -- A conversion between identical types is the operand itself.
  cases hidentical : source.identical target with
  | true =>
    rw [convertFrom, if_pos hidentical]
    exact hsame source hsource target htarget hidentical
  | false =>
    -- Any other one goes by the rule of integer kinds.
    rw [convertFrom_kind hidentical hsourceKind hc htargetKind, toKind,
      if_pos (Bool.and_eq_true_iff.mp hk).1]
    exact hinto source target hsourceKind

/-- A conversion between kept kinds yields the wrapped integer. -/
theorem yields_conversion {func value : Expr} {ellipsis : Bool}
    (hkind : env.kind? s e.id = some k) (hk : k.isKept)
    (hfunc : (isTypeExpr func).runIn env s = (.ok true, s))
    (hvalue : Integral env s scope value c)
    (hidentical : ∀ source ∈ env.type? s value.id, ∀ target ∈ env.type? s e.id,
      source.identical target → c = k)
    (h : Yields env s scope (self value none) Value.ofInt fun σ => value.integer env s σ) :
    Yields env s scope (call self e func [value] ellipsis) Value.ofInt
      fun σ => (value.integer env s σ).map k.wrap := by
  refine Yields.conversion hkind (Kind.isSized_of_isKept hk) hfunc hvalue.kind hvalue.sized
    (fun source hsource target htarget hsame => ?_) fun source target hsource => ?_
  -- Identical types have the same kind, so the integer stays in range.
  · obtain rfl := hidentical source hsource target htarget hsame
    exact h.keep hvalue.staysIn
  · exact yields_toIntegerKind hk (Bool.and_eq_true_iff.mp hvalue.sized).1 hvalue.staysIn hsource h

end

end GoLua
