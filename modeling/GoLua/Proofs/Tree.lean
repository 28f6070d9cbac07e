import GoLua.Go.Expr

/-!
# Parts of an expression

The expressions that an expression is made of directly, and what can be said of a tree by way of
them: that all its nodes have a property (`Expr.All`), how much a quantity comes to over all of its
nodes (`Expr.total`), and which connectives it evaluates itself (`Expr.Outer`).

The right operand of `&&` or `||` runs only where the left one does not decide, so a connective
stands between its operands and what is around it. `Expr.Outer` descends to the outermost
connectives of a tree and no further.
-/

namespace GoLua

/-- The sum of a quantity over several things. -/
def sumOf {α : Type} (f : α → Nat) : List α → Nat
  | [] => 0
  | a :: as => f a + sumOf f as

section SumOf

variable {α β : Type}

@[simp] theorem sumOf_nil (f : α → Nat) : sumOf f [] = 0 := rfl

@[simp] theorem sumOf_cons (f : α → Nat) (a : α) (as : List α) :
    sumOf f (a :: as) = f a + sumOf f as := rfl

@[simp] theorem sumOf_append (f : α → Nat) (as bs : List α) :
    sumOf f (as ++ bs) = sumOf f as + sumOf f bs := by
  induction as with
  | nil => simp
  | cons a as ih => simp [ih, Nat.add_assoc]

@[simp] theorem sumOf_map (f : β → Nat) (g : α → β) (as : List α) :
    sumOf f (as.map g) = sumOf (fun a => f (g a)) as := by
  induction as with
  | nil => rfl
  | cons a as ih => simp [ih]

/-- A sum over lists of lists is the sum of their sums. -/
theorem sumOf_flatMap (f : β → Nat) (g : α → List β) (as : List α) :
    sumOf f (as.flatMap g) = sumOf (fun a => sumOf f (g a)) as := by
  induction as with
  | nil => rfl
  | cons a as ih => simp [ih]

/-- A sum of smaller numbers is smaller. -/
theorem sumOf_le_sumOf {f g : α → Nat} {as : List α} (h : ∀ a ∈ as, f a ≤ g a) :
    sumOf f as ≤ sumOf g as := by
  induction as with
  | nil => exact Nat.le_refl 0
  | cons a as ih =>
    have hhead := h a (by simp)
    have htail := ih fun b hb => h b (by simp [hb])
    simp only [sumOf_cons]
    omega

/-- Equal numbers have equal sums. -/
theorem sumOf_congr {f g : α → Nat} {as : List α} (h : ∀ a ∈ as, f a = g a) :
    sumOf f as = sumOf g as :=
  Nat.le_antisymm (sumOf_le_sumOf fun a ha => Nat.le_of_eq (h a ha))
    (sumOf_le_sumOf fun a ha => Nat.le_of_eq (h a ha).symm)

/-- A sum of zeros is zero. -/
theorem sumOf_eq_zero {f : α → Nat} {as : List α} (h : ∀ a ∈ as, f a = 0) : sumOf f as = 0 := by
  induction as with
  | nil => rfl
  | cons a as ih => simp [h a (by simp), ih fun b hb => h b (by simp [hb])]

/-- The sum of two functions is the two sums. -/
theorem sumOf_add (f g : α → Nat) (as : List α) :
    sumOf (fun a => f a + g a) as = sumOf f as + sumOf g as := by
  induction as with
  | nil => rfl
  | cons a as ih =>
    simp only [sumOf_cons, ih]
    omega

/-- Each number is at most the sum. -/
theorem le_sumOf_of_mem {f : α → Nat} {a : α} {as : List α} (h : a ∈ as) : f a ≤ sumOf f as := by
  induction as with
  | nil => cases h
  | cons b as ih =>
    rw [sumOf_cons]
    rcases List.mem_cons.mp h with rfl | h
    · exact Nat.le_add_right _ _
    · exact Nat.le_trans (ih h) (Nat.le_add_left _ _)

/-- Counting adds up one for each thing that passes the test. -/
theorem countP_eq_sumOf (test : α → Bool) (as : List α) :
    as.countP test = sumOf (fun a => (test a).toNat) as := by
  induction as with
  | nil => rfl
  | cons a as ih =>
    rw [List.countP_cons, ih, sumOf_cons]
    cases test a <;> simp [Nat.add_comm]

end SumOf

/-! ### Direct parts -/

/-- The key and the value of an element. -/
def Element.parts (e : Element) : List Expr :=
  e.key.toList ++ [e.value]

namespace Expr

/-- The expressions that an expression is made of directly. -/
def parts : Expr → List Expr
  | .basicLit _ _ | .ident _ _ | .funcLit _ _ | .typeExpr _ => []
  | .unary _ _ operand => [operand]
  | .binary _ _ left right => [left, right]
  | .index _ base place => [base, place]
  | .slice _ base low high max => base :: (low.toList ++ high.toList ++ max.toList)
  | .selector _ base sel => [base, sel]
  | .call _ func args _ => func :: args
  | .compositeLit _ elements => elements.flatMap Element.parts
  | .typeAssert _ base asserted => base :: asserted.toList
  | .paren _ inner | .star _ inner => [inner]

/-- Whether an expression is `&&` or `||`. -/
def isConnective : Expr → Bool
  | .binary _ op _ _ => op.isLogical
  | _ => false

end Expr

/-! ### Properties of all nodes -/

/-- All nodes of a tree have a property. -/
inductive Expr.All (P : Expr → Prop) : Expr → Prop where
  | intro {e : Expr} (here : P e) (parts : ∀ c ∈ e.parts, Expr.All P c) : Expr.All P e

/-- The connectives that a tree evaluates whenever it is evaluated have a property: what stands
inside of a connective is not asked. -/
inductive Expr.Outer (P : Expr → Prop) : Expr → Prop where
  | connective {e : Expr} (h : e.isConnective) (here : P e) : Expr.Outer P e
  | through {e : Expr} (h : e.isConnective = false) (parts : ∀ c ∈ e.parts, Expr.Outer P c) :
      Expr.Outer P e

namespace Expr

variable {P Q : Expr → Prop} {e : Expr}

/-- What holds in all of a tree holds at its root. -/
theorem All.here (h : e.All P) : P e := by
  cases h
  assumption

/-- And in each of its parts. -/
theorem All.part (h : e.All P) {c : Expr} (hc : c ∈ e.parts) : c.All P := by
  cases h with
  | intro _ parts => exact parts c hc

theorem All.mono (hPQ : ∀ c, P c → Q c) (h : e.All P) : e.All Q := by
  induction h with
  | intro here _ ih => exact .intro (hPQ _ here) ih

/-- And below the brackets. -/
theorem All.unparen (h : e.All P) : e.unparen.All P := by
  fun_induction Expr.unparen e with
  | case1 n inner ih => exact ih (h.part (by simp [parts]))
  | case2 => exact h

/-- What holds outside of connectives holds in the parts of everything else. -/
theorem Outer.part (h : e.Outer P) (he : e.isConnective = false) {c : Expr} (hc : c ∈ e.parts) :
    c.Outer P := by
  cases h with
  | connective h => simp [he] at h
  | through _ parts => exact parts c hc

/-- And at a connective itself. -/
theorem Outer.connective_of (h : e.Outer P) (he : e.isConnective) : P e := by
  cases h with
  | connective _ here => exact here
  | through h _ => simp [he] at h

end Expr

/-! ### Totals -/

/-- The size of an element is that of its parts. -/
theorem Element.size_eq (e : Element) : e.size = sumOf Expr.size e.parts := by
  obtain ⟨_ | key, value⟩ := e <;> simp [Element.size, Element.parts, optionSize]

theorem optionSize_eq (e : Option Expr) : optionSize e = sumOf Expr.size e.toList := by
  cases e <;> simp [optionSize]

theorem argsSize_eq (es : List Expr) : argsSize es = sumOf Expr.size es := by
  induction es with
  | nil => rfl
  | cons e es ih => simp [argsSize, ih]

theorem elementsSize_eq (es : List Element) :
    elementsSize es = sumOf Expr.size (es.flatMap Element.parts) := by
  induction es with
  | nil => rfl
  | cons e es ih => simp [elementsSize, ih, Element.size_eq]

namespace Expr

/-- A tree has one node more than its parts have together. -/
theorem size_eq (e : Expr) : e.size = sumOf size e.parts + 1 := by
  cases e <;>
    simp [size, parts, optionSize_eq, argsSize_eq, elementsSize_eq, Nat.add_assoc]

/-- A part is smaller than the whole. -/
theorem size_lt_of_mem_parts {e c : Expr} (h : c ∈ e.parts) : c.size < e.size := by
  calc c.size ≤ sumOf size e.parts := le_sumOf_of_mem h
    _ < sumOf size e.parts + 1 := Nat.lt_succ_self _
    _ = e.size := (size_eq e).symm

/-- What a quantity comes to over all nodes of a tree. -/
def total (f : Expr → Nat) (e : Expr) : Nat :=
  f e + sumOf (fun c : { c // c ∈ e.parts } => c.1.total f) e.parts.attach
termination_by e.size
decreasing_by exact size_lt_of_mem_parts c.2

/-- A total is the number of the root and the totals of the parts. -/
theorem total_eq (f : Expr → Nat) (e : Expr) : e.total f = f e + sumOf (total f) e.parts := by
  rw [total]
  congr 1
  conv => rhs; rw [← List.attach_map_subtype_val e.parts]
  exact (sumOf_map _ _ _).symm

/-- The number of nodes of a tree that pass a test. -/
def count (test : Expr → Bool) (e : Expr) : Nat :=
  e.total fun c => (test c).toNat

/-- An induction over a tree by way of its parts. -/
theorem partsInduction {P : Expr → Prop} (step : ∀ e, (∀ c ∈ e.parts, P c) → P e) (e : Expr) :
    P e :=
  step e fun c _ => partsInduction step c
termination_by e.size
decreasing_by exact size_lt_of_mem_parts ‹_›

theorem all_of_forall {P : Expr → Prop} (h : ∀ e, P e) (e : Expr) : e.All P :=
  partsInduction (P := All P) (fun e ih => .intro (h e) ih) e

theorem outer_of_forall {P : Expr → Prop} (h : ∀ e, P e) (e : Expr) : e.Outer P := by
  induction e using partsInduction with
  | step e ih =>
    cases he : e.isConnective with
    | true => exact .connective he (h e)
    | false => exact .through he ih

/-- Quantities that agree at all nodes come to the same over the tree. -/
theorem total_congr {f g : Expr → Nat} {e : Expr} (h : e.All fun c => f c = g c) :
    e.total f = e.total g := by
  induction h with
  | intro here _ ih =>
    rw [total_eq, total_eq, here]
    exact congrArg _ (sumOf_congr ih)

/-- A name costs nothing, whatever brackets are around it, if neither it nor the brackets do. -/
theorem total_eq_zero_of_isIdent {f : Expr → Nat} (hf : ∀ e : Expr, e.unparen.isIdent → f e = 0)
    {e : Expr} (h : e.unparen.isIdent) : e.total f = 0 := by
  induction e using partsInduction with
  | step e ih =>
    rw [total_eq, hf e h]
    cases e with
    | paren n inner =>
      -- Brackets have one part, which is the same name.
      have hinner : inner.unparen.isIdent := by simpa using h
      simp [parts, ih inner (by simp [parts]) hinner]
    | ident => simp [parts]
    | _ => simp [unparen, isIdent] at h

end Expr

end GoLua
