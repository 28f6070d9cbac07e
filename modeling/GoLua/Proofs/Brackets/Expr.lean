import GoLua.Proofs.Brackets.Binary
import GoLua.Proofs.Brackets.Call

/-!
# Expressions with twins as parts

An expression whose parts are `Paired` is `Paired` itself with the same expression over the other parts,
form by form. Four lowerings more may be inside one another than for the parts: one for the expression, and
up to three for nodes that lowering puts around a part. A receive needs them all, because it is lowered
as a call of a new node.
-/

namespace GoLua

open Lower Template

variable {scene : Scene} {k l n m : Nat} {a a' b b' c c' e e' func func' : Expr}
  {args args' : List Expr} (ν : Node)

/-! ### Function literals -/

/-- The body of a function literal is no part of the tree. -/
theorem mirrors_functionLiteral (hid : e'.id = e.id) (body : Nat) :
    Mirrors scene (functionLiteral e body) (functionLiteral e' body) := by
  refine (mirrors_typeOf (.of_eq hid)).bind fun type => mirrors_bodySource.bind fun source => ?_
  split
  · exact mirrors_unsupported _ _ _ _
  · exact mirrors_unsupported _ _ _ _
  · exact (mirrors_requestBody _ body _).bind fun _ => mirrors_pure rfl

/-! ### Receives -/

/-- A node that is marked as suspending as soon as it is made. -/
theorem mirrors_synthesizeSuspending {α : Type} {Q : α → α → Prop} (type : GoType) (span : Span)
    {f f' : Node → LowerM α} (h : ∀ ν, MirrorsBy scene Q (f ν) (f' ν)) :
    MirrorsBy scene Q
      (synthesizeNode type span >>= fun ν => markSuspending ν.id >>= fun _ => f ν)
      (synthesizeNode type span >>= fun ν => markSuspending ν.id >>= fun _ => f' ν) := by
  -- Three notes are made at once, the node, its type and its mark; all of them are at the new node.
  let step (s : FunctionState) : FunctionState :=
    s.newSyntheticId.2.modifyOverlay fun o =>
      { o with types := o.types.insert s.nextSynthetic type,
               suspending := o.suspending.mark s.nextSynthetic }
  have hrun (env : Env) (s : FunctionState) :
      (synthesizeNode type span >>= fun ν =>
        markSuspending ν.id >>= fun _ => pure ν).runIn env s =
      (.ok ⟨s.nextSynthetic, span⟩, step s) := rfl
  have hnoted : Mirrors scene (synthesizeNode type span >>= fun ν =>
      markSuspending ν.id >>= fun _ => pure ν) (synthesizeNode type span >>= fun ν =>
      markSuspending ν.id >>= fun _ => pure ν) :=
    mirrors_made hrun hrun (fun _ _ _ => rfl) (fun _ _ _ => rfl) (fun _ => rfl)
      (fun _ => .of_new rfl fun _ hne => (Overlay.AgreesAt.insertType hne type).trans (.mark hne))
      fun _ => rfl
  simpa only [bind_assoc, pure_bind] using hnoted.bind h

/-- Calls of twins, by the same node. -/
theorem twin_call (hfunc : Paired scene n m func func')
    (h : List.Forall₂ (Twin scene n m) args args') (ellipsis : Bool) :
    Twin scene (n + 3) (m + 3) (.call ν func args ellipsis) (.call ν func' args' ellipsis) :=
  .of_form rfl .refl rfl rfl rfl fun _ _ hk hl _ => mirrors_call hfunc h hk hl rfl ellipsis

/-- A receive is a call of a new node, which both sides mark. -/
theorem mirrors_receive (h : Twin scene n m c c') (hn : 0 < n) (hm : 0 < m) (hk : n + 3 ≤ k)
    (hl : m + 3 ≤ l) (hnode : e'.node = e.node) :
    Mirrors scene (receive (within k) e c) (receive (within l) e' c') := by
  have hid : e'.id = e.id := congrArg Node.id hnode
  have hspan : e'.span = e.span := congrArg Node.span hnode
  refine (mirrors_typeOf h.alike).bind fun chanType => ?_
  refine (mirrors_typeOf (.of_eq hid)).bind fun type => ?_
  dsimp only
  split
  · rw [hspan]
    refine (mirrors_synthesizeUse _ _ _ e.span e.span).bind ?_
    rintro _ _ ⟨id, rfl, rfl⟩
    refine mirrors_synthesizeSuspending _ e.span fun ν => ?_
    -- The callee is lowered as a name, the operand as its only argument.
    have hcallee : Paired scene 1 1 (.ident ⟨id, e.span⟩ Lua.Support.recv)
        (.ident ⟨id, e.span⟩ Lua.Support.recv) := ⟨twin_ident rfl .refl _, .ident _ _⟩
    have hcall := twin_call ν (hcallee.mono hn hm) (.cons h .nil) false
    exact ((hcall.mono hk hl).here none).bind fun received => mirrors_pure rfl
  · exact mirrors_unsupported _ _ _ _

/-! ### Forms -/

namespace Paired

/-- A token is lowered to an error on both sides. -/
theorem basicLit (token : String) : Paired scene 4 4 (.basicLit ν token) (.basicLit ν token) :=
  ⟨.of_form rfl .refl rfl rfl rfl fun _ _ _ _ _ => mirrors_unsupported _ _ _ _, .other rfl rfl⟩

theorem ident (name : String) : Paired scene 4 4 (.ident ν name) (.ident ν name) :=
  ⟨(twin_ident rfl .refl name).mono (by omega) (by omega), .ident ν name⟩

theorem funcLit (body : Nat) : Paired scene 4 4 (.funcLit ν body) (.funcLit ν body) :=
  ⟨.of_form rfl .refl rfl rfl rfl fun _ _ _ _ _ => mirrors_functionLiteral rfl body, .other rfl rfl⟩

theorem typeExpr : Paired scene 4 4 (.typeExpr ν) (.typeExpr ν) :=
  ⟨.of_form rfl .refl rfl rfl rfl fun _ _ _ _ _ => mirrors_unsupported _ _ _ _, .typeExpr ν⟩

/-- Four levels of fuel are enough for one level of the tree. -/
theorem unary (h : Paired scene n m c c') (hn : 0 < n) (hm : 0 < m) (op : UnaryOp) :
    Paired scene (n + 4) (m + 4) (.unary ν op c) (.unary ν op c') := by
  refine ⟨.of_form rfl .refl rfl rfl rfl fun k l hk hl _ => ?_, .other rfl rfl⟩
  have hoperand : Paired scene k l c c' := h.mono (by omega) (by omega)
  cases op with
  -- An address is that of a place, which may be inside of the brackets.
  | addrOf => exact mirrors_addressOf hoperand rfl
  | recv => exact mirrors_receive h.toTwin hn hm hk hl rfl
  | _ => exact mirrors_unaryOperator hoperand.toTwin _ _ _

theorem binary (ha : Paired scene n m a a') (hb : Paired scene n m b b') (op : BinaryOp) :
    Paired scene (n + 4) (m + 4) (.binary ν op a b) (.binary ν op a' b') := by
  refine ⟨.of_form rfl .refl rfl rfl rfl fun k l hk hl _ => ?_, .other rfl rfl⟩
  exact mirrors_binary (ha.toTwin.mono (by omega) (by omega)) (hb.toTwin.mono (by omega) (by omega))
    rfl op

theorem index (hb : Paired scene n m b b') (h : Paired scene n m c c') :
    Paired scene (n + 4) (m + 4) (.index ν b c) (.index ν b' c') := by
  refine ⟨.of_form rfl .refl rfl rfl rfl fun k l hk hl _ => ?_, ?_⟩
  · exact mirrors_index rfl (hb.toTwin.mono (by omega) (by omega))
      (h.toTwin.mono (by omega) (by omega))
  · exact .index (hb.toTwin.mono (by omega) (by omega)) (h.toTwin.mono (by omega) (by omega))

theorem slice {low low' high high' max max' : Option Expr} (hb : Paired scene n m b b')
    (hlow : Option.Rel (Paired scene n m) low low') (hhigh : Option.Rel (Paired scene n m) high high')
    (hmax : Option.Rel (Paired scene n m) max max') :
    Paired scene (n + 4) (m + 4) (.slice ν b low high max) (.slice ν b' low' high' max') := by
  refine ⟨.of_form rfl .refl rfl rfl rfl fun k l hk hl _ => ?_, .other rfl rfl⟩
  have htwin (c c' : Expr) (h : Paired scene n m c c') : Twin scene k l c c' :=
    h.toTwin.mono (by omega) (by omega)
  exact mirrors_slice (htwin b b' hb) (rel_imp hlow htwin) (rel_imp hhigh htwin) (rel_imp hmax htwin)

/-- The name that is selected is the same on both sides. -/
theorem selector (h : Paired scene n m b b') (sel : Expr) :
    Paired scene (n + 4) (m + 4) (.selector ν b sel) (.selector ν b' sel) := by
  have hwhole : Twin scene (n + 3 + 1) (m + 3 + 1) (.selector ν b sel) (.selector ν b' sel) :=
    .of_form rfl .refl rfl rfl rfl fun _ _ hk hl _ =>
      mirrors_selector h (by omega) (by omega) sel
  have hbase := h.mono (k := n + 4) (l := m + 4) (by omega) (by omega)
  exact ⟨hwhole, .selector hwhole hbase.toTwin hbase.core⟩

theorem call (hfunc : Paired scene n m func func')
    (h : List.Forall₂ (Paired scene n m) args args') (ellipsis : Bool) :
    Paired scene (n + 4) (m + 4) (.call ν func args ellipsis) (.call ν func' args' ellipsis) := by
  have hargs : List.Forall₂ (Twin scene n m) args args' := h.imp fun _ _ harg => harg.toTwin
  exact ⟨(twin_call ν hfunc hargs ellipsis).mono (by omega) (by omega), .other rfl rfl⟩

/-- Where the literal is that of a struct, its keys have to be the names they were. -/
theorem compositeLit {elements elements' : List Element}
    (h : List.Forall₂ (ElementTwin scene n m) elements elements')
    (hnames : ∀ s type, Later scene.base s → scene.env.type? s ν.id = some type →
      type.throughPointer.isStruct →
        elements'.map Element.fieldName? = elements.map Element.fieldName?) :
    Paired scene (n + 4) (m + 4) (.compositeLit ν elements) (.compositeLit ν elements') := by
  have hwhole : Twin scene (n + 3 + 1) (m + 3 + 1) (.compositeLit ν elements)
      (.compositeLit ν elements') := by
    refine .of_form rfl .refl rfl rfl rfl fun k l hk hl _ => ?_
    have helements : List.Forall₂ (ElementTwin scene k l) elements elements' :=
      h.imp fun _ _ hx => hx.mono (by omega) (by omega)
    exact mirrors_composite helements rfl hnames
  exact ⟨hwhole, .literal hwhole⟩

theorem typeAssert {asserted asserted' : Option Expr} (hb : Paired scene n m b b')
    (h : Option.Rel (Paired scene n m) asserted asserted') :
    Paired scene (n + 4) (m + 4) (.typeAssert ν b asserted) (.typeAssert ν b' asserted') := by
  refine ⟨.of_form rfl .refl rfl rfl rfl fun k l hk hl _ => ?_, .other rfl rfl⟩
  exact mirrors_typeAssertion rfl (hb.toTwin.mono (by omega) (by omega))
    (rel_imp h fun _ _ htype => htype.alike)

theorem paren (h : Paired scene n m c c') :
    Paired scene (n + 4) (m + 4) (.paren ν c) (.paren ν c') := by
  refine ⟨.of_form rfl .refl h.coreId h.isIdent h.isLiteral fun k l hk hl desired => ?_, ?_⟩
  · exact h.lowers (by omega) (by omega) desired
  · exact (h.mono (k := n + 4) (l := m + 4) (by omega) (by omega)).core

theorem star (h : Paired scene n m c c') :
    Paired scene (n + 4) (m + 4) (.star ν c) (.star ν c') :=
  ⟨(twin_star h.toTwin rfl .refl).mono (by omega) (by omega),
    .star (h.toTwin.mono (by omega) (by omega))⟩

end Paired

end GoLua
