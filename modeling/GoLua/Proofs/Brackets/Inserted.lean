import GoLua.Proofs.Brackets.Expr
import GoLua.Tree.Builder

/-!
# Inserted brackets

Go writes brackets around an expression where it likes, and they are nodes of the tree. Some rules look
through them, others look at the node itself, and each of the nodes in brackets is recorded on its own. So
it is not plain that brackets do nothing.

They do (`lower_bracketed`): a tree in which parts have been put in brackets is lowered to the same
text, or neither tree is lowered. All that the run leaves in the state is the same as well, but for what has
been recorded as lowered and for where diagnostics point. The diagnostic about a map key points to the key as
it was written, with its brackets.

What has to be known of the inserted nodes is in `Wraps`: that they say the same as what they wrap, and
that none of them has a number that lowering will give to a node of its own. Without the last, brackets can
be noticed (`brackets_noticed`).

Names of selected fields and keys of struct literals are not put in brackets, because they are not
lowered.
-/

namespace GoLua

open Lower

/-- The same is known of two nodes. -/
structure SaysSame (env : Env) (s : FunctionState) (inner outer : NodeId) : Prop where
  type : env.type? s outer = env.type? s inner
  constant : env.constant? s outer = env.constant? s inner
  suspends : env.suspends s outer = env.suspends s inner

/-- The same is known of a node and of one around it, and it will stay so: lowering gives their numbers to
no nodes of its own. -/
structure Wraps (env : Env) (s : FunctionState) (inner outer : NodeId) : Prop
    extends SaysSame env s inner outer where
  inner_old : inner < s.nextSynthetic
  outer_old : outer < s.nextSynthetic

mutual

/-- **Inserted brackets.** The second tree is the first one with brackets put around some of its parts;
`moved` says which spans are put around which. -/
inductive AddsBrackets (env : Env) (s : FunctionState) (moved : Span → Span → Prop) :
    Expr → Expr → Prop
  | bracket {ν : Node} {c c' : Expr} (h : AddsBrackets env s moved c c')
    (hwraps : Wraps env s c'.id ν.id) (hspan : moved c'.span ν.span) :
    AddsBrackets env s moved c (.paren ν c')
  | basicLit (ν : Node) (token : String) :
    AddsBrackets env s moved (.basicLit ν token) (.basicLit ν token)
  | ident (ν : Node) (name : String) : AddsBrackets env s moved (.ident ν name) (.ident ν name)
  | unary (ν : Node) (op : UnaryOp) {c c' : Expr} (h : AddsBrackets env s moved c c') :
    AddsBrackets env s moved (.unary ν op c) (.unary ν op c')
  | binary (ν : Node) (op : BinaryOp) {a a' b b' : Expr} (ha : AddsBrackets env s moved a a')
    (hb : AddsBrackets env s moved b b') :
    AddsBrackets env s moved (.binary ν op a b) (.binary ν op a' b')
  | index (ν : Node) {b b' c c' : Expr} (hb : AddsBrackets env s moved b b')
    (h : AddsBrackets env s moved c c') : AddsBrackets env s moved (.index ν b c) (.index ν b' c')
  | slice (ν : Node) {b b' : Expr} {low low' high high' max max' : Option Expr}
    (hb : AddsBrackets env s moved b b') (hlow : Option.Rel (AddsBrackets env s moved) low low')
    (hhigh : Option.Rel (AddsBrackets env s moved) high high')
    (hmax : Option.Rel (AddsBrackets env s moved) max max') :
    AddsBrackets env s moved (.slice ν b low high max) (.slice ν b' low' high' max')
  | selector (ν : Node) {b b' : Expr} (sel : Expr) (hb : AddsBrackets env s moved b b') :
    AddsBrackets env s moved (.selector ν b sel) (.selector ν b' sel)
  | call (ν : Node) {func func' : Expr} {args args' : List Expr} (ellipsis : Bool)
    (hfunc : AddsBrackets env s moved func func')
    (h : List.Forall₂ (AddsBrackets env s moved) args args') :
    AddsBrackets env s moved (.call ν func args ellipsis) (.call ν func' args' ellipsis)
  | compositeLit (ν : Node) {elements elements' : List Element}
    (h : List.Forall₂ (AddsBracketsIn env s moved) elements elements')
    (hkeys : elements'.map Element.key = elements.map Element.key ∨ ν.id < s.nextSynthetic ∧
      ∀ type, env.type? s ν.id = some type → ¬ type.throughPointer.isStruct) :
    AddsBrackets env s moved (.compositeLit ν elements) (.compositeLit ν elements')
  | typeAssert (ν : Node) {b b' : Expr} {asserted asserted' : Option Expr}
    (hb : AddsBrackets env s moved b b') (h : Option.Rel (AddsBrackets env s moved) asserted asserted') :
    AddsBrackets env s moved (.typeAssert ν b asserted) (.typeAssert ν b' asserted')
  | paren (ν : Node) {c c' : Expr} (h : AddsBrackets env s moved c c') :
    AddsBrackets env s moved (.paren ν c) (.paren ν c')
  | star (ν : Node) {c c' : Expr} (h : AddsBrackets env s moved c c') :
    AddsBrackets env s moved (.star ν c) (.star ν c')
  | funcLit (ν : Node) (body : Nat) : AddsBrackets env s moved (.funcLit ν body) (.funcLit ν body)
  | typeExpr (ν : Node) : AddsBrackets env s moved (.typeExpr ν) (.typeExpr ν)

/-- The same for the key and the value of an element of a literal. -/
inductive AddsBracketsIn (env : Env) (s : FunctionState) (moved : Span → Span → Prop) :
    Element → Element → Prop
  | element {key key' : Option Expr} {value value' : Expr}
    (hkey : Option.Rel (AddsBrackets env s moved) key key') (hvalue : AddsBrackets env s moved value value') :
    AddsBracketsIn env s moved ⟨key, value⟩ ⟨key', value'⟩

end

variable {env : Env} {s : FunctionState} {moved : Span → Span → Prop} {e e' : Expr} {n m bound : Nat}

/-- Brackets take over what was noted of the node inside. -/
theorem Wraps.alike {inner outer : NodeId} (h : Wraps env s inner outer) :
    Alike ⟨env, s, moved⟩ inner outer :=
  .of_known h.inner_old h.outer_old h.type h.constant h.suspends

/-! ### Parts -/

/-- Trees up to a size are paired wherever brackets are inserted, with a depth of four times their
size. -/
def PairedBelow (env : Env) (s : FunctionState) (moved : Span → Span → Prop) (bound : Nat) : Prop :=
  ∀ c c', c'.size < bound → AddsBrackets env s moved c c' →
    Paired ⟨env, s, moved⟩ (4 * c.size) (4 * c'.size) c c'

namespace PairedBelow

variable (hsmall : PairedBelow env s moved bound)
include hsmall

/-- Trees with brackets added are pairs, at a fuel for each of the two. -/
theorem expr {c c' : Expr} (h : AddsBrackets env s moved c c') (hbound : c'.size < bound)
    (hn : c.size ≤ n) (hm : c'.size ≤ m) : Paired ⟨env, s, moved⟩ (4 * n) (4 * m) c c' :=
  (hsmall c c' hbound h).mono (Nat.mul_le_mul_left 4 hn) (Nat.mul_le_mul_left 4 hm)

/-- So are operands that may be missing. -/
theorem option {x x' : Option Expr} (h : Option.Rel (AddsBrackets env s moved) x x')
    (hbound : optionSize x' < bound) (hn : optionSize x ≤ n) (hm : optionSize x' ≤ m) :
    Option.Rel (Paired ⟨env, s, moved⟩ (4 * n) (4 * m)) x x' := by
  cases h with
  | none => exact .none
  | some h => exact .some (hsmall.expr h hbound hn hm)

/-- So are the arguments of a call. -/
theorem args {args args' : List Expr} (h : List.Forall₂ (AddsBrackets env s moved) args args')
    (hbound : argsSize args' < bound) (hn : argsSize args ≤ n) (hm : argsSize args' ≤ m) :
    List.Forall₂ (Paired ⟨env, s, moved⟩ (4 * n) (4 * m)) args args' := by
  induction h with
  | nil => exact .nil
  | cons hc _ ih =>
    simp only [argsSize] at hbound hn hm
    exact .cons (hsmall.expr hc (by omega) (by omega) (by omega)) (ih (by omega) (by omega) (by omega))

/-- And the elements of a literal. -/
theorem elements {elements elements' : List Element}
    (h : List.Forall₂ (AddsBracketsIn env s moved) elements elements')
    (hbound : elementsSize elements' < bound) (hn : elementsSize elements ≤ n)
    (hm : elementsSize elements' ≤ m) :
    List.Forall₂ (ElementTwin ⟨env, s, moved⟩ (4 * n) (4 * m)) elements elements' := by
  induction h with
  | nil => exact .nil
  | cons hx _ ih =>
    obtain ⟨hkey, hvalue⟩ := hx
    simp only [elementsSize, Element.size] at hbound hn hm
    have hkeys := hsmall.option hkey (n := n) (m := m) (by omega) (by omega) (by omega)
    have hvalues := hsmall.expr hvalue (n := n) (m := m) (by omega) (by omega) (by omega)
    exact .cons ⟨rel_imp hkeys fun _ _ h => h.toTwin, hvalues.toTwin⟩
      (ih (by omega) (by omega) (by omega))

end PairedBelow

/-! ### Trees -/

/-- The names of fields are the same, where the names are those of fields. -/
theorem fieldNames_eq {ν : Node} {elements elements' : List Element}
    (h : elements'.map Element.key = elements.map Element.key ∨ ν.id < s.nextSynthetic ∧
      ∀ type, env.type? s ν.id = some type → ¬ type.throughPointer.isStruct)
    {t : FunctionState} (ht : Later s t) {type : GoType} (htype : env.type? t ν.id = some type)
    (hstruct : type.throughPointer.isStruct) :
    elements'.map Element.fieldName? = elements.map Element.fieldName? := by
  rcases h with hkeys | ⟨hold, hother⟩
  · have hnames (xs : List Element) :
        xs.map Element.fieldName? = (xs.map Element.key).map (·.bind Expr.identName?) := by
      rw [List.map_map]
      rfl
    rw [hnames, hnames, hkeys]
  · rw [ht.type? env hold] at htype
    exact absurd hstruct (hother type htype)

/-- **Brackets leave trees paired**, by induction on the size of the tree with the brackets. -/
theorem AddsBrackets.paired (h : AddsBrackets env s moved e e') :
    Paired ⟨env, s, moved⟩ (4 * e.size) (4 * e'.size) e e' := by
  induction hsize : e'.size using Nat.strongRecOn generalizing e e' with
  | ind size ih =>
    subst hsize
    have hsmall : PairedBelow env s moved e'.size := fun c c' hlt hc => ih c'.size hlt hc rfl
    -- Only the first case is about brackets; the others take the tree apart on both sides. Four levels
    -- for each node are enough: a receive takes one, the call that is made of it another, and what a
    -- call makes of its receiver two.
    cases h with
    | @bracket ν _ c' h hwraps hspan =>
      have hinner := hsmall.expr h (Nat.lt_succ_self _) (Nat.le_refl _) (Nat.le_refl _)
      have hpos := e.size_pos
      exact (hinner.bracket (by omega) hwraps.alike hspan).mono (Nat.le_refl _)
        (by simp only [Expr.size]; omega)
    | basicLit ν token => exact .basicLit ν token
    | ident ν name => exact .ident ν name
    | @unary ν op c c' h =>
      have hc := hsmall.expr h (Nat.lt_succ_self _) (Nat.le_refl _) (Nat.le_refl _)
      have hpos := c.size_pos
      have hpos' := c'.size_pos
      exact hc.unary ν (by omega) (by omega) op
    | @binary ν op a a' b b' ha hb =>
      simp only [Expr.size] at hsmall ⊢
      exact .binary ν (hsmall.expr ha (by omega) (by omega) (by omega))
        (hsmall.expr hb (by omega) (by omega) (by omega)) op
    | index ν hb h =>
      simp only [Expr.size] at hsmall ⊢
      exact .index ν (hsmall.expr hb (by omega) (by omega) (by omega))
        (hsmall.expr h (by omega) (by omega) (by omega))
    | slice ν hb hlow hhigh hmax =>
      simp only [Expr.size] at hsmall ⊢
      exact .slice ν (hsmall.expr hb (by omega) (by omega) (by omega))
        (hsmall.option hlow (by omega) (by omega) (by omega))
        (hsmall.option hhigh (by omega) (by omega) (by omega))
        (hsmall.option hmax (by omega) (by omega) (by omega))
    | selector ν sel hb =>
      simp only [Expr.size] at hsmall ⊢
      exact .selector ν (hsmall.expr hb (by omega) (by omega) (by omega)) sel
    | call ν ellipsis hfunc h =>
      simp only [Expr.size] at hsmall ⊢
      exact .call ν (hsmall.expr hfunc (by omega) (by omega) (by omega))
        (hsmall.args h (by omega) (by omega) (by omega)) ellipsis
    | compositeLit ν h hkeys =>
      simp only [Expr.size] at hsmall ⊢
      exact .compositeLit ν (hsmall.elements h (by omega) (by omega) (by omega))
        fun t type ht htype hstruct => fieldNames_eq hkeys ht htype hstruct
    | typeAssert ν hb h =>
      simp only [Expr.size] at hsmall ⊢
      exact .typeAssert ν (hsmall.expr hb (by omega) (by omega) (by omega))
        (hsmall.option h (by omega) (by omega) (by omega))
    | paren ν h => exact .paren ν (hsmall.expr h (Nat.lt_succ_self _) (Nat.le_refl _) (Nat.le_refl _))
    | star ν h => exact .star ν (hsmall.expr h (Nat.lt_succ_self _) (Nat.le_refl _) (Nat.le_refl _))
    | funcLit ν body => exact .funcLit ν body
    | typeExpr ν => exact .typeExpr ν

/-! ### Lowering -/

/-- Diagnostics that have not been moved are the same. -/
theorem diagnostics_eq (hmoved : ∀ a b, moved a b → a = b) {ds ds' : List Diagnostic}
    (h : List.Forall₂ (Diagnostic.Moved moved) ds ds') : ds' = ds := by
  have hspan {a b : Span} (h : Relation.ReflTransGen moved a b) : a = b := by
    induction h with
    | refl => rfl
    | tail _ hstep ih => exact ih.trans (hmoved _ _ hstep)
  induction h with
  | nil => rfl
  | @cons d d' ds ds' hd _ ih =>
    obtain ⟨severity, message, span, notes⟩ := d
    obtain ⟨severity', message', span', notes'⟩ := d'
    obtain ⟨rfl, rfl, rfl, hspans⟩ := hd
    obtain rfl : span = span' := hspan hspans
    rw [ih]

/-- **Brackets do nothing.** -/
theorem lower_bracketed (h : AddsBrackets env s moved e e') (desired : Option GoType) :
    (∀ f t, (lower e desired).runIn env s = (.ok f, t) →
      ∃ t', (lower e' desired).runIn env s = (.ok f, t') ∧ Matches moved t t' ∧
        ((∀ a b, moved a b → a = b) → t'.reporter = t.reporter)) ∧
    (∀ err t, (lower e desired).runIn env s = (.error err, t) →
      ∃ err' t', (lower e' desired).runIn env s = (.error err', t')) := by
  -- The depth that lowering starts with is enough for both trees.
  have hmirrors : Outcomes moved Eq s ((lower e desired).runIn env s)
      ((lower e' desired).runIn env s) :=
    (h.paired.lowers (Nat.le_add_right _ 8) (Nat.le_add_right _ 8) desired).outcomes env.inside
      (.refl s) (.refl moved s)
  constructor
  · intro f t hrun
    rw [hrun] at hmirrors
    rcases hrun' : (lower e' desired).runIn env s with ⟨err' | f', t'⟩ <;> rw [hrun'] at hmirrors
    · exact hmirrors.elim
    · obtain ⟨rfl, -, hmatches⟩ := hmirrors
      refine ⟨t', rfl, hmatches, fun hmoved => ?_⟩
      obtain ⟨lowered, reporter, rfl, hreports⟩ := hmatches
      exact congrArg Reporter.mk (diagnostics_eq hmoved hreports)
  · intro err t hrun
    rw [hrun] at hmirrors
    rcases hrun' : (lower e' desired).runIn env s with ⟨err' | f', t'⟩ <;> rw [hrun'] at hmirrors
    · exact ⟨err', t', rfl⟩
    · exact hmirrors.elim

/-! ### Lowering again

A tree without new brackets is compared with itself. -/

/-- A tree to which no brackets are added. -/
theorem AddsBrackets.refl (e : Expr) : AddsBrackets env s moved e e := by
  -- By induction on the tree; each constructor adds nothing to its parts.
  induction e using Expr.partsInduction with
  | step e ih =>
    have hoption {x : Option Expr} (h : ∀ c, x = some c → c ∈ e.parts) :
        Option.Rel (AddsBrackets env s moved) x x := by
      cases x with
      | none => exact .none
      | some c => exact .some (ih c (h c rfl))
    cases e with
    | basicLit ν token => exact .basicLit ν token
    | ident ν name => exact .ident ν name
    | unary ν op operand => exact .unary ν op (ih operand (by simp [Expr.parts]))
    | binary ν op left right =>
      exact .binary ν op (ih left (by simp [Expr.parts])) (ih right (by simp [Expr.parts]))
    | index ν base place =>
      exact .index ν (ih base (by simp [Expr.parts])) (ih place (by simp [Expr.parts]))
    | slice ν base low high max =>
      exact .slice ν (ih base (by simp [Expr.parts]))
        (hoption fun c hc => by simp [Expr.parts, hc]) (hoption fun c hc => by simp [Expr.parts, hc])
        (hoption fun c hc => by simp [Expr.parts, hc])
    | selector ν base sel => exact .selector ν sel (ih base (by simp [Expr.parts]))
    | call ν func args ellipsis =>
      exact .call ν ellipsis (ih func (by simp [Expr.parts]))
        (List.forall₂_same.mpr fun arg harg => ih arg (by simp [Expr.parts, harg]))
    | compositeLit ν elements =>
      refine .compositeLit ν (List.forall₂_same.mpr fun x hx => ?_) (.inl rfl)
      have hpart {c : Expr} (hc : c ∈ x.parts) : AddsBrackets env s moved c c :=
        ih c (List.mem_flatMap.mpr ⟨x, hx, hc⟩)
      obtain ⟨key, value⟩ := x
      refine .element ?_ (hpart (by simp [Element.parts]))
      cases key with
      | none => exact .none
      | some key => exact .some (hpart (by simp [Element.parts]))
    | typeAssert ν base asserted =>
      exact .typeAssert ν (ih base (by simp [Expr.parts])) (hoption fun c hc => by simp [Expr.parts, hc])
    | paren ν inner => exact .paren ν (ih inner (by simp [Expr.parts]))
    | star ν inner => exact .star ν (ih inner (by simp [Expr.parts]))
    | funcLit ν body => exact .funcLit ν body
    | typeExpr ν => exact .typeExpr ν

/-- **Lowering again.** Neither the levels that are left, if there are enough, nor what has been recorded
as lowered make a difference. -/
theorem within_again {k l : Nat} {desired : Option GoType} {f : Fragment} {t : FunctionState}
    (hk : 4 * e.size ≤ k) (hl : 4 * e.size ≤ l)
    (h : (within k e desired).runIn env s = (.ok f, t)) (lowered : List NodeId) :
    ∃ t', (within l e desired).runIn env { s with lowered } = (.ok f, t') ∧ Matches Eq t t' := by
  have hpaired : Paired ⟨env, s, Eq⟩ (4 * e.size) (4 * e.size) e e := (AddsBrackets.refl e).paired
  have hmatches : Matches Eq s { s with lowered } :=
    ⟨lowered, s.reporter, rfl, List.forall₂_same.mpr fun _ _ => ⟨rfl, rfl, rfl, .refl⟩⟩
  have houtcomes : Outcomes Eq Eq s ((within k e desired).runIn env s)
      ((within l e desired).runIn env { s with lowered }) :=
    (hpaired.lowers hk hl desired).outcomes env.inside (.refl s) hmatches
  rw [h] at houtcomes
  rcases hrun : (within l e desired).runIn env { s with lowered } with ⟨err | f', t'⟩ <;>
    rw [hrun] at houtcomes
  · exact houtcomes.elim
  · obtain ⟨rfl, -, hlater⟩ := houtcomes
    exact ⟨t', rfl, hlater⟩

/-! ### A receive in brackets -/

/-- An expression in brackets that are said to be written where it is. -/
def bracketsAt (e : Expr) : Build Expr := do
  return .paren { (← Build.node (← Build.typeOf e)) with span := e.span } e

/-- `ready && <-events` and `ready && (<-(events))` -/
def receivedInBrackets : Build (Expr × Expr) := do
  let bool := GoType.basic .bool
  let ready ← Build.var "ready" bool
  let events ← Build.var "events" (.chan bool)
  let received ← Build.node bool
  let both ← Build.node bool
  let channel ← bracketsAt events
  let result ← bracketsAt (.unary received .recv channel)
  return (.binary both .logicalAnd ready (.unary received .recv events),
    .binary both .logicalAnd ready result)

/-- The facts about `receivedInBrackets`. -/
def receivedEnv : Env :=
  { facts := (receivedInBrackets.run {}).2.facts }

theorem addsBrackets_receivedInBrackets :
    AddsBrackets receivedEnv {} Eq (receivedInBrackets.run {}).1.1 (receivedInBrackets.run {}).1.2 := by
  have hevents : Wraps receivedEnv {} 1 4 := ⟨⟨rfl, rfl, rfl⟩, by decide, by decide⟩
  have hreceived : Wraps receivedEnv {} 2 5 := ⟨⟨rfl, rfl, rfl⟩, by decide, by decide⟩
  exact .binary _ _ (.ident _ _) (.bracket (.unary _ _ (.bracket (.ident _ _) hevents rfl)) hreceived rfl)

/-- The receive is made a call of new nodes, the connective becomes a guard, and the brackets leave no
trace in either. -/
theorem lower_bracketed_receivedInBrackets :
    ∃ f t t', (lower (receivedInBrackets.run {}).1.1 none).runIn receivedEnv {} = (.ok f, t) ∧
      (lower (receivedInBrackets.run {}).1.2 none).runIn receivedEnv {} = (.ok f, t') ∧
      Matches Eq t t' ∧ t'.reporter = t.reporter := by
  have hok : ((lower (receivedInBrackets.run {}).1.1 none).runIn receivedEnv {}).1.isOk = true := by
    decide +kernel
  obtain ⟨f, t, hrun⟩ := LowerM.exists_runIn_eq_ok hok
  obtain ⟨t', hrun', hmatches, hreporter⟩ :=
    (lower_bracketed addsBrackets_receivedInBrackets none).1 f t hrun
  exact ⟨f, t, t', hrun, hrun', hmatches, hreporter fun _ _ h => h⟩

/-! ### Brackets that are noticed -/

/-- `m[k]` and `m[(k)]`, for a map whose keys are host objects -/
def keyedByObject : Build (Expr × Expr) := do
  let object := GoType.pointer (.named "github.com/gopherjs/gopherjs/js.Object" (.struct []))
  let m ← Build.var "m" (.map object (.basic .int))
  let k ← Build.var "k" object
  let brackets ← Build.paren k
  let n ← Build.node (.basic .int)
  return (.index n m k, .index n m brackets)

/-- The facts about `keyedByObject`, with a host. -/
def keyedEnv : Env :=
  { facts := (keyedByObject.run {}).2.facts, config := { host := some {} } }

/-- `<-events + -n` and `<-events + -(n)`, where the brackets have the first number that lowering gives to
a node of its own. -/
def receivedMinus : Build (Expr × Expr) := do
  let int := GoType.basic .int
  let events ← Build.var "events" (.chan int)
  let received ← Build.node int
  let n ← Build.var "n" int
  let negated ← Build.node int
  let sum ← Build.node int
  let brackets : Node := ⟨firstSyntheticId, n.span⟩
  Build.record fun f => { f with types := f.types.insert brackets.id int }
  return (.binary sum .add (.unary received .recv events) (.unary negated .neg n),
    .binary sum .add (.unary received .recv events) (.unary negated .neg (.paren brackets n)))

/-- The facts about `receivedMinus`. -/
def minusEnv : Env :=
  { facts := (receivedMinus.run {}).2.facts }

/-- **Brackets are noticed** by the message about a key that no map can have, which points to them, and
where a node of lowering has the number of theirs. -/
theorem brackets_noticed :
    (∃ ν m k p, (keyedByObject.run {}).1 = (.index ν m k, .index ν m (.paren p k)) ∧
      SaysSame keyedEnv {} k.id p.id ∧
      ((lower (.index ν m k) none).runIn keyedEnv {}).1.isOk = true ∧
      ((lower (.index ν m (.paren p k)) none).runIn keyedEnv {}).2.reporter ≠
        ((lower (.index ν m k) none).runIn keyedEnv {}).2.reporter) ∧
    (∃ ν received ν' n p, (receivedMinus.run {}).1 = (.binary ν .add received (.unary ν' .neg n),
        .binary ν .add received (.unary ν' .neg (.paren p n))) ∧
      SaysSame minusEnv {} n.id p.id ∧
      ((lower (.binary ν .add received (.unary ν' .neg n)) none).runIn minusEnv {}).1.isOk = true ∧
      ((lower (.binary ν .add received (.unary ν' .neg (.paren p n))) none).runIn
        minusEnv {}).1.isOk = false) := by
  refine ⟨⟨_, _, _, _, rfl, ⟨rfl, rfl, rfl⟩, ?_, ?_⟩, ⟨_, _, _, _, _, rfl, ⟨rfl, rfl, rfl⟩, ?_, ?_⟩⟩
  all_goals decide +kernel

end GoLua
