import GoLua.Lower.Expr
import GoLua.Proofs.Minted
import GoLua.Proofs.Tree

/-!
# How lowering is put together

Every rule of lowering is a computation that is put together from a few operations: it looks at facts,
mints names and nodes, leaves statements and asks for the lowerings of parts. `Built S I w m Q` says
this of a computation `m`. What holds of all operations, and goes over from two computations to their
sequence, then holds of lowering by induction on `Built`, without another walk through the rules.

`Built` keeps account of three things on the way.

* **Nodes that are known.** `m` looks only at nodes in `I`. Nodes that it makes are added to `I`
  where they are made, so all that is looked at is a node of the program or one that was made before.
* **What is spent.** `m` spends at most `w`. An expression is lowered for the price of its tree
  (`Prices.price`), which no rule can pay twice for one part. Names and constants are free, because a
  template may write them as often as it likes.
* **Connectives.** Outside of the operands of connectives, `m` meets only connectives that the
  setting allows. A connective is one operation (`Built.logical`), so what its right operand leaves
  is never seen by the computation around it.

`Q` is what the result is known to satisfy.
-/

namespace GoLua

/-! ### Prices -/

/-- What the operations of lowering cost. -/
structure Prices where
  /-- The nodes whose value is known, which are not lowered by their form. -/
  constant : NodeId → Bool
  /-- Lowering a node by its form. -/
  visit : NodeId → Nat
  /-- Making a statement of a suspending call. -/
  suspend : NodeId → Nat
  /-- Receiving from a channel. -/
  receive : Nat
  /-- Asking for the body of a function literal. -/
  body : Nat → Nat
  /-- The nodes that lowering makes. -/
  fresh : NodeId → Prop
  visit_fresh : ∀ id, fresh id → visit id = 0
  suspend_fresh : ∀ id, fresh id → suspend id ≤ receive

namespace Prices

variable (p : Prices)

/-- What it costs to lower a node by its form; names are free. -/
def form (e : Expr) : Nat :=
  if e.unparen.isIdent then 0 else p.visit e.id

/-- What a node costs besides. -/
def effect : Expr → Nat
  | .unary _ .recv _ => p.receive
  | .call n _ _ _ => p.suspend n.id
  | .funcLit _ body => p.body body
  | _ => 0

/-- What a node costs. -/
def node (e : Expr) : Nat :=
  p.form e + p.effect e

/-- What an expression costs that is lowered by its form all the way down. -/
def full (e : Expr) : Nat :=
  e.total p.node

/-- What it costs to lower an expression. -/
def price (e : Expr) : Nat :=
  if p.constant e.id then 0 else p.full e

theorem full_eq (e : Expr) : p.full e = p.node e + sumOf p.full e.parts :=
  Expr.total_eq p.node e

/-- A name has no price of its own. -/
theorem node_eq_zero_of_isIdent {e : Expr} (h : e.unparen.isIdent) : p.node e = 0 := by
  cases e <;> simp_all [node, form, effect, Expr.unparen, Expr.isIdent]

/-- So nothing is paid for a name. -/
theorem full_eq_zero_of_isIdent {e : Expr} (h : e.unparen.isIdent) : p.full e = 0 :=
  Expr.total_eq_zero_of_isIdent (fun _ he => p.node_eq_zero_of_isIdent he) h

@[simp] theorem full_ident (n : Node) (name : String) : p.full (.ident n name) = 0 :=
  p.full_eq_zero_of_isIdent rfl

/-- The price of a tree is at most that of all of it; a known constant costs nothing. -/
theorem price_le_full (e : Expr) : p.price e ≤ p.full e := by
  unfold price
  split
  · exact Nat.zero_le _
  · exact Nat.le_refl _

theorem price_eq_zero_of_isIdent {e : Expr} (h : e.unparen.isIdent) : p.price e = 0 :=
  Nat.le_zero.mp (p.full_eq_zero_of_isIdent h ▸ p.price_le_full e)

@[simp] theorem price_ident (n : Node) (name : String) : p.price (.ident n name) = 0 :=
  p.price_eq_zero_of_isIdent rfl

theorem price_eq_zero_of_constant {e : Expr} (h : p.constant e.id = true) : p.price e = 0 :=
  if_pos h

/-- Everything else costs all of it. -/
theorem price_eq_full {e : Expr} (h : p.constant e.id = false) : p.price e = p.full e :=
  if_neg (by simp [h])

/-- Prices add up below the sum of the full ones. -/
theorem sumOf_price_le (es : List Expr) : sumOf p.price es ≤ sumOf p.full es :=
  sumOf_le_sumOf fun e _ => p.price_le_full e

/-- Dropping brackets saves what they cost. -/
theorem full_unparen_le (e : Expr) : p.full e.unparen ≤ p.full e := by
  fun_induction Expr.unparen e with
  | case1 n inner ih =>
    rw [p.full_eq (.paren n inner)]
    simp only [Expr.parts, sumOf_cons, sumOf_nil]
    omega
  | case2 => exact Nat.le_refl _

/-- A new node costs what it does and what its parts cost. -/
theorem full_of_fresh {e : Expr} (h : p.fresh e.id) :
    p.full e = p.effect e + sumOf p.full e.parts := by
  have hform : p.form e = 0 := by simp [form, p.visit_fresh _ h]
  rw [full_eq, node, hform, Nat.zero_add]

/-- A new node around one expression costs nothing, unless it does something. -/
theorem full_around {e c : Expr} (h : p.fresh e.id) (heffect : p.effect e = 0)
    (hparts : e.parts = [c]) : p.full e = p.full c := by
  rw [p.full_of_fresh h, heffect, hparts, sumOf_cons, sumOf_nil, Nat.zero_add, Nat.add_zero]

end Prices

/-! ### Settings -/

/-- Where computations are looked at. -/
structure Setting where
  /-- How parts are lowered. -/
  self : Lowering
  prices : Prices
  /-- The connectives that may be met outside of the operands of connectives. -/
  connective : Expr → Prop

/-- An expression that a computation may ask to be lowered. -/
structure Expr.Fits (S : Setting) (I : NodeId → Prop) (e : Expr) : Prop where
  known : e.All fun c => I c.id
  outer : e.Outer S.connective

/-- The nodes of `I`, and one more. -/
def withNode (I : NodeId → Prop) (id : NodeId) : NodeId → Prop :=
  fun x => x = id ∨ I x

theorem withNode_self (I : NodeId → Prop) (id : NodeId) : withNode I id id := Or.inl rfl

theorem withNode_of {I : NodeId → Prop} {x : NodeId} (id : NodeId) (h : I x) : withNode I id x :=
  Or.inr h

namespace Expr.Fits

variable {S : Setting} {I J : NodeId → Prop} {e : Expr}

theorem id (h : e.Fits S I) : I e.id := h.known.here

/-- A part of a tree that fits does too, outside of connectives. -/
theorem part (h : e.Fits S I) (he : e.isConnective = false) {c : Expr} (hc : c ∈ e.parts) :
    c.Fits S I :=
  ⟨h.known.part hc, h.outer.part he hc⟩

/-- What fits fits where more nodes are known. -/
theorem mono (hIJ : ∀ x, I x → J x) (h : e.Fits S I) : e.Fits S J :=
  ⟨h.known.mono fun _ hc => hIJ _ hc, h.outer⟩

theorem withNode (id : NodeId) (h : e.Fits S I) : e.Fits S (GoLua.withNode I id) :=
  h.mono fun _ hx => withNode_of id hx

/-- A node and parts that fit make a tree that does. -/
theorem intro (hid : I e.id) (he : e.isConnective = false) (h : ∀ c ∈ e.parts, c.Fits S I) :
    e.Fits S I :=
  ⟨.intro hid fun c hc => (h c hc).known, .through he fun c hc => (h c hc).outer⟩

/-- A node around one expression. -/
theorem around {c : Expr} (hid : I e.id) (he : e.isConnective = false) (hparts : e.parts = [c])
    (h : c.Fits S I) : e.Fits S I := by
  refine .intro hid he fun c' hc' => ?_
  rw [hparts] at hc'
  obtain rfl := List.mem_singleton.mp hc'
  exact h

/-- What is inside of brackets fits. -/
theorem unparen (h : e.Fits S I) : e.unparen.Fits S I := by
  fun_induction Expr.unparen e with
  | case1 n inner ih => exact ih (h.part rfl (by simp [parts]))
  | case2 => exact h

end Expr.Fits

/-! ### Computations -/

open Lower in
/-- **Computations of lowering.** `Built S I w m Q` says that `m` is put together from the operations
of lowering, looking only at nodes of `I` and spending at most `w`, with results that satisfy `Q`. -/
inductive Built (S : Setting) :
    {α : Type} → (NodeId → Prop) → Nat → LowerM α → (α → Prop) → Prop where
  | pure {α : Type} {I : NodeId → Prop} {w : Nat} {a : α} {Q : α → Prop} (h : Q a) :
      Built S I w (pure a) Q
  | bind {α β : Type} {I : NodeId → Prop} {v w : Nat} {m : LowerM α} {f : α → LowerM β}
      {Q : α → Prop} {R : β → Prop} (first : Built S I v m Q)
      (rest : ∀ a, Q a → Built S I w (f a) R) : Built S I (v + w) (m >>= f) R
  | weaken {α : Type} {I : NodeId → Prop} {v w : Nat} {m : LowerM α} {Q R : α → Prop}
      (h : Built S I v m Q) (hw : v ≤ w) (hQ : ∀ a, Q a → R a) : Built S I w m R
  | fail {α : Type} {I : NodeId → Prop} {e : LowerError} {Q : α → Prop}
      (h : ∀ id l, e ≠ .missingType id l) : Built S I 0 (fail e) Q
  -- Looking at facts
  | typeOf {I : NodeId → Prop} {e : Expr} (h : I e.id) : Built S I 0 (typeOf e) fun _ => True
  | constantOf {I : NodeId → Prop} {e : Expr} (h : I e.id) :
      Built S I 0 (constantOf e) fun c => c.isSome = S.prices.constant e.id
  | boundObject? {I : NodeId → Prop} {e : Expr} (h : I e.id) :
      Built S I 0 (boundObject? e) fun _ => True
  | selectionOf {I : NodeId → Prop} {e : Expr} (h : I e.id) :
      Built S I 0 (selectionOf e) fun _ => True
  | config {α : Type} {I : NodeId → Prop} (f : Config → α) :
      Built S I 0 (config f) fun _ => True
  | bodySource {I : NodeId → Prop} : Built S I 0 bodySource fun _ => True
  -- Names and diagnostics
  | newLocal {I : NodeId → Prop} (hint : String) : Built S I 0 (newLocal hint) fun _ => True
  | accessorBox {I : NodeId → Prop} (key : String) (h : isHint (key ++ "_ptr")) :
      Built S I 0 (accessorBox key) fun _ => True
  | reportError {I : NodeId → Prop} (message : String) (span : Span) :
      Built S I 0 (reportError message span) fun _ => True
  -- Nodes
  | synthesizeNode {α : Type} {I : NodeId → Prop} {w : Nat} {Q : α → Prop} (type : GoType)
      (span : Span) {k : Node → LowerM α}
      (rest : ∀ node : Node, S.prices.fresh node.id → Built S (withNode I node.id) w (k node) Q) :
      Built S I w (synthesizeNode type span >>= k) Q
  | synthesizeUse {α : Type} {I : NodeId → Prop} {w : Nat} {Q : α → Prop} (name : String)
      (obj : Object) (type : GoType) (span : Span) {k : Expr → LowerM α}
      (rest : ∀ node : Node, S.prices.fresh node.id →
        Built S (withNode I node.id) w (k (.ident node name)) Q) :
      Built S I w (synthesizeUse name obj type span >>= k) Q
  | synthesizeSelector {α : Type} {I : NodeId → Prop} {w : Nat} {Q : α → Prop} (type : GoType)
      (span : Span) (selection : Selection) {k : Node → LowerM α}
      (rest : ∀ node : Node, S.prices.fresh node.id → Built S (withNode I node.id) w (k node) Q) :
      Built S I w (synthesizeNode type span >>= fun node =>
        recordSelection node.id selection >>= fun _ => k node) Q
  | synthesizeSuspending {α : Type} {I : NodeId → Prop} {w : Nat} {Q : α → Prop} (type : GoType)
      (span : Span) {k : Node → LowerM α}
      (rest : ∀ node : Node, S.prices.fresh node.id → Built S (withNode I node.id) w (k node) Q) :
      Built S I w (synthesizeNode type span >>= fun node =>
        markSuspending node.id >>= fun _ => k node) Q
  -- What is paid for
  | recordLowered {I : NodeId → Prop} (e : Expr) :
      Built S I (S.prices.form e) (recordLowered e) fun _ => True
  | requestBody {α : Type} {I : NodeId → Prop} {w : Nat} {Q : α → Prop} (body : Nat)
      (sig : Signature) {k : Option BodySource → LowerM α} {f : FunctionText → LowerM α}
      (without : Built S I (S.prices.body body + w) (k none) Q)
      (asked : ∀ source, k (some source) = requestBody source body sig >>= f)
      (rest : ∀ function, Built S I w (f function) Q) :
      Built S I (S.prices.body body + w) (bodySource >>= k) Q
  | lower {I : NodeId → Prop} {e : Expr} (h : e.Fits S I) (desired : Option GoType) :
      Built S I (S.prices.price e) (S.self e desired) fun _ => True
  -- Statements
  | keepInTemporary {I : NodeId → Prop} (hint value : String) (h : isHint hint) :
      Built S I 0 (keepInTemporary hint value) fun _ => True
  | assigned {I : NodeId → Prop} (write : HostWrite) (target value : String)
      (h : IsPropertyOf write.object target) :
      Built S I 0 (assigned write target value) fun _ => True
  | placeCall {I : NodeId → Prop} {e : Expr} (h : I e.id) (sig : Signature) (call : String) :
      Built S I (S.prices.suspend e.id) (placeCall e sig call) fun _ => True
  | logical {I : NodeId → Prop} {n : Node} {op : BinaryOp} {left right : Expr}
      (hop : op.isLogical) (hleft : left.All fun c => I c.id)
      (hright : right.All fun c => I c.id) (h : S.connective (.binary n op left right)) :
      Built S I (S.prices.price left + S.prices.price right)
        (logical S.self (.binary n op left right) op left right) fun _ => True
  | add {I : NodeId → Prop} {w : Nat} {m : LowerM String} {hint : String} (hhint : isHint hint)
      (parts : Parts) (h : Built S I w m fun _ => True) :
      Built S I w (parts.add hint m) fun _ => True

/-- As `Built`, where nothing is known of the results. -/
abbrev Builds (S : Setting) {α : Type} (I : NodeId → Prop) (w : Nat) (m : LowerM α) : Prop :=
  Built S I w m fun _ => True

namespace Built

variable {S : Setting} {I : NodeId → Prop} {α β : Type} {m : LowerM α} {f : α → LowerM β} {v w : Nat}
  {Q : α → Prop} {R : β → Prop}

/-- The same computation, allowed to spend more. -/
theorem spending (h : Built S I v m Q) (hw : v ≤ w) : Built S I w m Q :=
  h.weaken hw fun _ ha => ha

theorem any (h : Built S I w m Q) : Builds S I w m :=
  h.weaken (Nat.le_refl w) fun _ _ => trivial

/-- A computation that costs nothing comes first. -/
theorem free (first : Built S I 0 m Q) (rest : ∀ a, Q a → Built S I w (f a) R) :
    Built S I w (m >>= f) R :=
  (first.bind rest).spending (by omega)

/-- A computation that spends a share of what there is comes first. -/
theorem seq (first : Built S I v m Q) (hv : v ≤ w) (rest : ∀ a, Q a → Built S I (w - v) (f a) R) :
    Built S I w (m >>= f) R :=
  (first.bind rest).spending (by omega)

/-- A computation whose result is only turned into another. -/
theorem map (g : α → β) (h : Built S I w m Q) (hg : ∀ a, Q a → R (g a)) :
    Built S I w (g <$> m) R := by
  rw [map_eq_pure_bind]
  exact (h.bind (w := 0) fun a ha => .pure (hg a ha)).spending (by omega)

/-- Two computations, one of which is chosen. -/
theorem ite {c : Prop} [Decidable c] {n : LowerM α} (hm : c → Built S I w m Q)
    (hn : ¬ c → Built S I w n Q) : Built S I w (if c then m else n) Q := by
  split
  · exact hm ‹_›
  · exact hn ‹_›

theorem unsupported {e : Expr} {construct : Construct} : Built S I w (Lower.unsupported e construct) Q :=
  (Built.fail fun _ _ h => by cases h).spending (Nat.zero_le w)

end Built

end GoLua
