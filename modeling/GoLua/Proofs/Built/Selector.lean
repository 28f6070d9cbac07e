import GoLua.Lower.Unary
import GoLua.Proofs.Built.Convert

/-!
# Receivers, selectors and unary operators

Here lowering puts new nodes around what it was given: a selector for embedded fields, an address or
a dereference for a receiver, a call for a receive. New nodes are free except for the call of a
receive, which costs what the receive may cost. What is inside of them is not known to be lowered as
a constant any more, and is paid for in full.
-/

namespace GoLua.Built

variable {S : Setting} {I : NodeId → Prop} {α : Type} {w : Nat} {Q : α → Prop} {e : Expr}

/-- A name is looked up, and not lowered any further. -/
theorem identifier (h : I e.id) (name : String) : Builds S I 0 (Lower.identifier e name) := by
  refine ite (fun _ => unsupported) fun _ => (objectOf h).free fun obj _ => ?_
  refine (config _).free fun entity _ => ?_
  split
  · exact .pure trivial
  split
  · exact (config _).free fun name _ => .pure trivial
  · exact (config _).free fun name _ => .pure trivial
  · exact (config _).free fun name _ => .pure trivial
  · refine (typeOf h).free fun type _ => (config _).free fun hostObject _ => ?_
    refine ite (fun _ => .pure trivial) fun _ => ?_
    split
    · exact .pure trivial
    · exact .pure trivial
    all_goals first | exact unsupported | exact (zeroFor type).free fun zero _ => .pure trivial
  all_goals exact unsupported

/-- A field pays for its base once. -/
theorem field {base : Expr} (hbase : base.Fits S I) (selection : Selection) (span : Span) :
    Builds S I (S.prices.price base) (Lower.field S.self base selection span) := by
  refine (pathFrom _ _ _).free fun path _ => ?_
  split
  · exact (renderOne hbase false _).seq (Nat.le_refl _) fun raw _ =>
      (config _).spending (Nat.zero_le _)
  · exact renderOne hbase false _

/-! ### Receivers -/

/-- What embedded fields lead to is a tree over the base that costs no more than the base. -/
theorem embeddedBase {base : Expr} (hbase : base.Fits S I) (selection : Selection) (span : Span)
    {k : Expr → LowerM α}
    (rest : ∀ (J : NodeId → Prop) (recv : Expr), recv.Fits S J →
      S.prices.full recv ≤ S.prices.full base → Built S J w (k recv) Q) :
    Built S I w (Lower.embeddedBase base selection span >>= k) Q := by
  unfold Lower.embeddedBase
  split
  · rw [pure_bind]
    exact rest I base hbase (Nat.le_refl _)
  · simp only [bind_assoc, pure_bind]
    -- The selector and its name are new nodes over the base.
    refine (pathFrom _ _ _).free fun path _ => ?_
    refine synthesizeNode _ _ fun selNode _ => synthesizeSelector _ _ _ fun node hfresh => ?_
    refine rest _ _ ?_ ?_
    · refine .intro (withNode_self _ _) rfl fun c hc => ?_
      rcases List.mem_cons.mp hc with rfl | hc
      · exact (hbase.withNode _).withNode _
      · obtain rfl := List.mem_singleton.mp hc
        exact fits_ident (withNode_of _ (withNode_self _ _)) _
    · rw [S.prices.full_of_fresh (e := .selector node base _) hfresh]
      simp [Prices.effect, Expr.parts]

/-- A receiver is dereferenced in place. -/
theorem receiverValue {recv : Expr} (h : recv.Fits S I) (type : GoType) (span : Span) :
    Builds S I (S.prices.full recv) (Lower.receiverValue S.self recv type span) := by
  unfold Lower.receiverValue
  split
  · refine synthesizeNode _ _ fun node hfresh => ?_
    have hfull : S.prices.full (.star node recv) = S.prices.full recv :=
      S.prices.full_around hfresh rfl rfl
    have hfits : (Expr.star node recv).Fits S (withNode I node.id) :=
      .around (withNode_self _ _) rfl rfl (h.withNode _)
    exact (implicitCopy hfits _).spending (hfull ▸ S.prices.price_le_full _)
  · exact (implicitCopy h type).spending (S.prices.price_le_full _)

/-- A promoted receiver selects from its base by new nodes. -/
theorem receiver {base : Expr} (hbase : base.Fits S I) (selection : Selection) (span : Span) :
    Builds S I (S.prices.full base) (Lower.receiver S.self base selection span) := by
  refine embeddedBase hbase selection span fun J recv hrecv hfull => ?_
  have hlower : Builds S J (S.prices.full base) (S.self recv none) :=
    (lower hrecv none).spending (Nat.le_trans (S.prices.price_le_full _) hfull)
  refine (typeOf hrecv.id).free fun type _ => ?_
  refine ite (fun _ => hlower) fun _ => ite (fun _ => ite (fun _ => hlower) fun _ => ?_) fun _ => ?_
  · refine synthesizeNode _ _ fun node hfresh => ?_
    have haddress : S.prices.full (.unary node .addrOf recv) = S.prices.full recv :=
      S.prices.full_around hfresh rfl rfl
    have hfits : (Expr.unary node .addrOf recv).Fits S (withNode J node.id) :=
      .around (withNode_self _ _) rfl rfl (hrecv.withNode _)
    refine (lower hfits none).spending (Nat.le_trans (S.prices.price_le_full _) ?_)
    rwa [haddress]
  · refine (receiverValue hrecv type span).seq hfull fun value _ => (config _).free fun boxed _ => ?_
    refine ite (fun _ => ?_) fun _ => .pure trivial
    exact (renderAs [.lowered value] (by simp [Operand.Fits]) false _).spending
      (Nat.zero_le _)

/-! ### Selectors -/

/-- A selector pays for its base, if that is a value. -/
theorem selector {base sel : Expr} (he : I e.id) (hbase : base.Fits S I) (hsel : I sel.id) :
    Builds S I (S.prices.full base) (Lower.selector S.self e base sel) := by
  refine (selectionOf he).free fun selection _ => ?_
  split
  · exact (identifier hsel _).spending (Nat.zero_le _)
  · dsimp only
    split
    · exact (field hbase _ _).spending (S.prices.price_le_full _)
    · refine (receiver hbase _ _).seq (Nat.le_refl _) fun recv _ => ?_
      exact (renderAs [.lowered recv] (by simp [Operand.Fits]) false _).spending
        (Nat.zero_le _)
    · exact .pure trivial

/-! ### Addresses -/

theorem variableAccessor (obj : Object) : Builds S I 0 (Lower.variableAccessor obj) := by
  refine ite (fun _ => (config _).free fun box _ => .pure trivial) fun _ => ?_
  exact (config _).free fun name _ => (accessorBox _ (isHint_accessorKey name)).free fun box _ => .pure trivial

theorem fieldAccessor {base : Expr} (h : base.Fits S I) (path : FieldPath) :
    Builds S I (S.prices.price base) (Lower.fieldAccessor S.self base path) := by
  unfold Lower.fieldAccessor
  exact renderOne h false _

/-- The address of a place pays for what the place is in. -/
theorem placeAddress {target : Expr} (h : target.Fits S I) (type : GoType) :
    Builds S I (S.prices.full target) (Lower.placeAddress S.self e target type) := by
  -- The form of the target decides; its own node is paid for, but an address does not need that.
  have hparts := S.prices.full_eq target
  cases target with
  | compositeLit n elements => exact (renderOne h false _).spending (S.prices.price_le_full _)
  | ident n name =>
    exact (objectOf h.id).free fun obj _ => (variableAccessor obj).spending (Nat.zero_le _)
  | selector n base sel =>
    have hbase : base.Fits S I := h.part rfl (by simp [Expr.parts])
    have hsel : sel.Fits S I := h.part rfl (by simp [Expr.parts])
    have hprice := S.prices.price_le_full base
    simp only [Expr.parts, sumOf_cons, sumOf_nil] at hparts
    refine (selectionOf h.id).free fun selection _ => ?_
    split
    · exact (objectOf hsel.id).free fun obj _ => (variableAccessor obj).spending (Nat.zero_le _)
    · refine ite (fun _ => (pathFrom _ _ _).free fun path _ => ?_) fun _ => unsupported
      exact (fieldAccessor hbase path).spending (by omega)
  | index n base place =>
    have hbase : base.Fits S I := h.part rfl (by simp [Expr.parts])
    have hplace : place.Fits S I := h.part rfl (by simp [Expr.parts])
    have hprice := S.prices.price_le_full base
    have hprice' := S.prices.price_le_full place
    simp only [Expr.parts, sumOf_cons, sumOf_nil] at hparts
    exact (renderTwo hbase hplace false _).spending (by omega)
  | star n inner =>
    have hinner : inner.Fits S I := h.part rfl (by simp [Expr.parts])
    have hprice := S.prices.price_le_full inner
    simp only [Expr.parts, sumOf_cons, sumOf_nil] at hparts
    exact (lower hinner none).spending (by omega)
  | _ => exact unsupported

/-- Host objects and aggregates are their own addresses. -/
theorem addressOf {operand : Expr} (he : I e.id) (h : operand.Fits S I) :
    Builds S I (S.prices.full operand) (Lower.addressOf S.self e operand) := by
  have hprice := S.prices.price_le_full operand
  refine (typeOf he).free fun type _ => (config _).free fun hostObject _ => ?_
  refine ite (fun _ => (renderOne h false _).spending hprice) fun _ => ?_
  refine (typeOf h.id).free fun operandType _ => ?_
  refine ite (fun _ => (lower h none).spending hprice) fun _ => ?_
  exact (placeAddress h.unparen type).spending (S.prices.full_unparen_le operand)

theorem dereference {operand : Expr} (he : I e.id) (h : operand.Fits S I) :
    Builds S I (S.prices.price operand) (Lower.dereference S.self e operand) := by
  refine (typeOf h.id).free fun pointer _ => (config _).free fun hostObject _ => ?_
  refine ite (fun _ => wrappedHostObject h) fun _ => (typeOf he).free fun type _ => ?_
  exact ite (fun _ => lower h none) fun _ => renderOne h false _

/-! ### Receives -/

/-- A receive costs the call it makes. -/
theorem receive {operand : Expr} (he : I e.id) (h : operand.Fits S I) :
    Builds S I (S.prices.receive + S.prices.full operand) (Lower.receive S.self e operand) := by
  refine (typeOf h.id).free fun chanType _ => (typeOf he).free fun type _ => ?_
  dsimp only
  split
  · refine synthesizeUse _ _ _ _ fun calleeNode _ => ?_
    refine synthesizeSuspending _ _ fun node hfresh => ?_
    -- The call that stands for the receive is new, so all that it costs besides is its suspension.
    have hcall : S.prices.full (.call node (.ident calleeNode Lua.Support.recv) [operand] false)
        ≤ S.prices.receive + S.prices.full operand := by
      have hsuspend := S.prices.suspend_fresh _ hfresh
      rw [S.prices.full_of_fresh (e := .call node _ _ _) hfresh]
      simp only [Prices.effect, Expr.parts, sumOf_cons, sumOf_nil, Prices.full_ident]
      omega
    have hfits : (Expr.call node (.ident calleeNode Lua.Support.recv) [operand] false).Fits S
        (withNode (withNode I calleeNode.id) node.id) := by
      refine .intro (withNode_self _ _) rfl fun c hc => ?_
      rcases List.mem_cons.mp hc with rfl | hc
      · exact fits_ident (withNode_of _ (withNode_self _ _)) _
      · obtain rfl := List.mem_singleton.mp hc
        exact (h.withNode _).withNode _
    refine (lower hfits none).seq (Nat.le_trans (S.prices.price_le_full _) hcall) fun received _ => ?_
    exact .pure trivial
  · exact unsupported

/-! ### Operators -/

theorem unaryOperator {operand : Expr} (h : operand.Fits S I) (op : UnaryOp) :
    Builds S I (S.prices.price operand) (Lower.unaryOperator S.self e operand op) := by
  refine (typeOf h.id).free fun type _ => ?_
  split
  · exact unsupported
  split
  · refine ite (fun _ => renderOne h false _) fun _ => ?_
    exact (renderOne h true _).seq (Nat.le_refl _) fun value _ => .pure trivial
  · exact (renderOne h true _).seq (Nat.le_refl _) fun value _ => .pure trivial
  · exact renderOne h true _
  · exact lower h none

/-- A unary operator costs a receive if it is one, and its operand. -/
theorem unary {n : Node} {op : UnaryOp} {operand : Expr} (he : I n.id) (h : operand.Fits S I) :
    Builds S I (S.prices.effect (.unary n op operand) + S.prices.full operand)
      (Lower.unary S.self (.unary n op operand) op operand) := by
  unfold Lower.unary
  split
  · exact (addressOf he h).spending (Nat.le_add_left _ _)
  · exact receive he h
  · have hprice := S.prices.price_le_full operand
    exact (unaryOperator h op).spending (Nat.le_trans hprice (Nat.le_add_left _ _))

end GoLua.Built
