import GoLua.Proofs.Brackets.Mirror
import GoLua.Proofs.Run.Expression

/-!
# Twins

Two expressions are *twins* (`Twin`) if lowering the one mirrors lowering the other, with any depth that
is enough for them, and if nothing that the rules ask about them tells them apart: their types, constants
and marks, and what is inside of their brackets. The rules of lowering are told about twins only, so they
hold for parts that differ in their brackets as they do for equal ones.

Two rules look further into what is inside of brackets: the one of calls, to find out what is called, and
the one of addresses, to find the place. For them there is `Core`, which says which parts are twins as
well. Expressions that are twins and have a core in common are `Paired`.
-/

namespace GoLua

open Lower

/-- The same is known of two nodes, in a scene. -/
structure Alike (scene : Scene) (id id' : NodeId) : Prop where
  type : ∀ s, Later scene.base s → scene.env.type? s id' = scene.env.type? s id
  constant : ∀ s, Later scene.base s → scene.env.constant? s id' = scene.env.constant? s id
  suspends : ∀ s, Later scene.base s → scene.env.suspends s id' = scene.env.suspends s id

/-- **Twins**: what the rules ask about two expressions has one answer, and lowering the one with `n` levels
left, or more, mirrors lowering the other with `m`, or more. -/
structure Twin (scene : Scene) (n m : Nat) (c c' : Expr) : Prop where
  alike : Alike scene c.id c'.id
  span : Relation.ReflTransGen scene.moved c.span c'.span
  coreId : c'.unparen.id = c.unparen.id
  isIdent : c'.unparen.isIdent = c.unparen.isIdent
  isLiteral : c'.unparen.isCompositeLit = c.unparen.isCompositeLit
  lowers : ∀ ⦃k l⦄, n ≤ k → m ≤ l → ∀ desired,
    Mirrors scene (within k c desired) (within l c' desired)

/-- Whether some rule looks at the parts of an expression that is inside of brackets. -/
def Expr.isLookedInto : Expr → Bool
  | .compositeLit _ _ | .ident _ _ | .selector _ _ _ | .index _ _ _ | .star _ _ | .typeExpr _ => true
  | _ => false

/-- What two expressions without brackets around them have in common where a rule looks into them. -/
inductive Core (scene : Scene) (n m : Nat) : Expr → Expr → Prop
  | literal {ν : Node} {elements elements' : List Element}
    (whole : Twin scene n m (.compositeLit ν elements) (.compositeLit ν elements')) :
    Core scene n m (.compositeLit ν elements) (.compositeLit ν elements')
  | ident (ν : Node) (name : String) : Core scene n m (.ident ν name) (.ident ν name)
  | selector {ν : Node} {b b' sel : Expr}
    (whole : Twin scene n m (.selector ν b sel) (.selector ν b' sel)) (base : Twin scene n m b b')
    (core : Core scene n m b.unparen b'.unparen) :
    Core scene n m (.selector ν b sel) (.selector ν b' sel)
  | index {ν : Node} {b b' i i' : Expr} (base : Twin scene n m b b') (index : Twin scene n m i i') :
    Core scene n m (.index ν b i) (.index ν b' i')
  | star {ν : Node} {c c' : Expr} (inner : Twin scene n m c c') :
    Core scene n m (.star ν c) (.star ν c')
  | typeExpr (ν : Node) : Core scene n m (.typeExpr ν) (.typeExpr ν)
  | other {e e' : Expr} (h : e.isLookedInto = false) (h' : e'.isLookedInto = false) :
    Core scene n m e e'

/-- Twins with a common core. -/
structure Paired (scene : Scene) (n m : Nat) (c c' : Expr) : Prop extends Twin scene n m c c' where
  core : Core scene n m c.unparen c'.unparen

variable {scene : Scene} {k l n m : Nat} {c c' e e' : Expr} {id id' : NodeId} {α : Type}

/-! ### What is known of nodes -/

namespace Alike

theorem refl (id : NodeId) : Alike scene id id :=
  ⟨fun _ _ => rfl, fun _ _ => rfl, fun _ _ => rfl⟩

theorem of_eq (h : id' = id) : Alike scene id id' :=
  h ▸ refl id'

/-- Being alike is passed on. -/
theorem trans {id'' : NodeId} (h : Alike scene id id') (h' : Alike scene id' id'') :
    Alike scene id id'' where
  type s hs := (h'.type s hs).trans (h.type s hs)
  constant s hs := (h'.constant s hs).trans (h.constant s hs)
  suspends s hs := (h'.suspends s hs).trans (h.suspends s hs)

/-- Nodes that are alike in a state are alike in every later one. -/
theorem later (h : Alike scene id id') {s : FunctionState} (hs : Later scene.base s) :
    Alike (scene.after s) id id' where
  type t ht := h.type t (hs.trans ht)
  constant t ht := h.constant t (hs.trans ht)
  suspends t ht := h.suspends t (hs.trans ht)

end Alike

/-- What is known of a node that has a number stays known. -/
theorem Later.type? {s s' : FunctionState} (h : Later s s') (env : Env) (hid : id < s.nextSynthetic) :
    env.type? s' id = env.type? s id := by
  rw [Env.type?, Env.type?, (h.agrees id hid).types]

/-- Constants are not noted any more once a node is there. -/
theorem Later.constant? {s s' : FunctionState} (h : Later s s') (env : Env)
    (hid : id < s.nextSynthetic) : env.constant? s' id = env.constant? s id := by
  rw [Env.constant?, Env.constant?, (h.agrees id hid).constants]

theorem Later.selection? {s s' : FunctionState} (h : Later s s') (env : Env)
    (hid : id < s.nextSynthetic) : env.selection? s' id = env.selection? s id := by
  rw [Env.selection?, Env.selection?, (h.agrees id hid).selections]

theorem Later.suspends {s s' : FunctionState} (h : Later s s') (env : Env)
    (hid : id < s.nextSynthetic) : env.suspends s' id = env.suspends s id := by
  rw [Env.suspends, Env.suspends, (h.agrees id hid).suspending]

/-- Nodes that have numbers, and of which the same is known to start with. -/
theorem Alike.of_known (hid : id < scene.base.nextSynthetic) (hid' : id' < scene.base.nextSynthetic)
    (htype : scene.env.type? scene.base id' = scene.env.type? scene.base id)
    (hconstant : scene.env.constant? scene.base id' = scene.env.constant? scene.base id)
    (hsuspends : scene.env.suspends scene.base id' = scene.env.suspends scene.base id) :
    Alike scene id id' where
  type s hs := by rw [hs.type? _ hid, hs.type? _ hid', htype]
  constant s hs := by rw [hs.constant? _ hid, hs.constant? _ hid', hconstant]
  suspends s hs := by rw [hs.suspends _ hid, hs.suspends _ hid', hsuspends]

/-! ### Looking at nodes -/

theorem mirrors_typeOf (h : Alike scene e.id e'.id) : Mirrors scene (typeOf e) (typeOf e') :=
  (mirrors_view fun _ s hs _ _ => h.type s hs).bind fun type => mirrors_orFail type _ _

theorem mirrors_constantOf (h : Alike scene e.id e'.id) :
    Mirrors scene (constantOf e) (constantOf e') :=
  mirrors_view fun _ s hs _ _ => h.constant s hs

theorem mirrors_intConstantOf (h : Alike scene e.id e'.id) :
    Mirrors scene (intConstantOf e) (intConstantOf e') :=
  (mirrors_constantOf h).bind fun _ => mirrors_pure rfl

theorem mirrors_isConstant (h : Alike scene e.id e'.id) :
    Mirrors scene (isConstant e) (isConstant e') :=
  (mirrors_constantOf h).bind fun _ => mirrors_pure rfl

theorem mirrors_isSuspending (h : Alike scene e.id e'.id) :
    Mirrors scene (isSuspending e) (isSuspending e') :=
  mirrors_view fun _ s hs _ _ => h.suspends s hs

/-! Only a node itself is asked for what it is bound to and for how it was resolved. -/

theorem mirrors_boundObject? (h : e'.id = e.id) :
    Mirrors scene (boundObject? e) (boundObject? e') :=
  mirrors_view fun _ _ _ _ _ => by rw [h]; rfl

theorem mirrors_objectOf (h : e'.id = e.id) : Mirrors scene (objectOf e) (objectOf e') :=
  (mirrors_boundObject? h).bind fun obj => mirrors_orFail obj _ _

theorem mirrors_selectionOf (h : e'.id = e.id) :
    Mirrors scene (selectionOf e) (selectionOf e') :=
  mirrors_view fun _ _ _ _ _ => by rw [h]; rfl

namespace Twin

theorem mono (h : Twin scene n m c c') (hn : n ≤ k) (hm : m ≤ l) : Twin scene k l c c' :=
  { h with lowers := fun _ _ hk hl => h.lowers (Nat.le_trans hn hk) (Nat.le_trans hm hl) }

/-- Twins in a state are twins in every later one. -/
theorem later (h : Twin scene n m c c') {s : FunctionState} (hs : Later scene.base s) :
    Twin (scene.after s) n m c c' :=
  { h with
    alike := h.alike.later hs
    lowers := fun _ _ hk hl desired => (h.lowers hk hl desired).later hs }

/-- With just the depth that is enough. -/
theorem here (h : Twin scene n m c c') (desired : Option GoType) :
    Mirrors scene (within n c desired) (within m c' desired) :=
  h.lowers (Nat.le_refl n) (Nat.le_refl m) desired

/-- Whether an operand is `nil` is seen behind its brackets. -/
theorem isNil (h : Twin scene n m c c') : Mirrors scene (Lower.isNil c) (Lower.isNil c') := by
  unfold Lower.isNil
  rw [h.isIdent]
  exact mirrors_ite (fun _ => (mirrors_boundObject? h.coreId).bind fun _ => mirrors_pure rfl)
    fun _ => mirrors_pure rfl

/-- Whether it may be repeated is too. -/
theorem isRepeatable (h : Twin scene n m c c') :
    Mirrors scene (isRepeatableExpr c) (isRepeatableExpr c') := by
  unfold isRepeatableExpr
  rw [h.isIdent]
  exact mirrors_ite (fun _ => mirrors_pure rfl) fun _ => mirrors_isConstant h.alike

end Twin

/-! ### Cores -/

/-- Cores are made of twins. -/
theorem Core.imp {scene' : Scene} (h : Core scene n m e e')
    (htwins : ∀ c c', Twin scene n m c c' → Twin scene' k l c c') : Core scene' k l e e' := by
  induction h with
  | literal whole => exact .literal (htwins _ _ whole)
  | ident ν name => exact .ident ν name
  | selector whole base _ ih => exact .selector (htwins _ _ whole) (htwins _ _ base) ih
  | index base index => exact .index (htwins _ _ base) (htwins _ _ index)
  | star inner => exact .star (htwins _ _ inner)
  | typeExpr ν => exact .typeExpr ν
  | other h h' => exact .other h h'

theorem Paired.mono (h : Paired scene n m c c') (hn : n ≤ k) (hm : m ≤ l) : Paired scene k l c c' :=
  ⟨h.toTwin.mono hn hm, h.core.imp fun _ _ htwin => htwin.mono hn hm⟩

theorem Paired.later (h : Paired scene n m c c') {s : FunctionState} (hs : Later scene.base s) :
    Paired (scene.after s) n m c c' :=
  ⟨h.toTwin.later hs, h.core.imp fun _ _ htwin => htwin.later hs⟩

/-! ### Lowering twins -/

/-- The location of a constant is in its errors only. -/
theorem toOption_lower (v : Constant) (type : GoType) (desired : Option GoType) (at₁ at₂ : Location) :
    (v.lower type desired at₂).toOption = (v.lower type desired at₁).toOption := by
  unfold Constant.lower
  cases type.basicKind? with
  | none => rfl
  | some kind =>
    -- Where the constant was written only matters to a failure.
    dsimp only
    cases v.inKind kind desired with
    | none => rfl
    | some fragment => cases fragment <;> rfl

/-- **Expressions.** What mirrors by its form mirrors as an expression. -/
theorem mirrors_expression {self self' : Lowering} (h : Alike scene e.id e'.id)
    (hform : ∀ desired, Mirrors scene (byForm self e desired) (byForm self' e' desired))
    (desired : Option GoType) :
    Mirrors scene (expression self e desired) (expression self' e' desired) := by
  refine (mirrors_typeOf h).bind fun type => (mirrors_constantOf h).bind fun c => ?_
  cases c with
  | none => exact (mirrors_recordLowered e e').bind fun _ => hform desired
  | some c => exact mirrors_ofExcept (toOption_lower c type desired _ _)

/-- Twins by their form. -/
theorem Twin.of_form (hid : e'.id = e.id) (hspan : Relation.ReflTransGen scene.moved e.span e'.span)
    (hcoreId : e'.unparen.id = e.unparen.id) (hident : e'.unparen.isIdent = e.unparen.isIdent)
    (hliteral : e'.unparen.isCompositeLit = e.unparen.isCompositeLit)
    (hform : ∀ k l, n ≤ k → m ≤ l → ∀ desired,
      Mirrors scene (byForm (within k) e desired) (byForm (within l) e' desired)) :
    Twin scene (n + 1) (m + 1) e e' where
  alike := .of_eq hid
  span := hspan
  coreId := hcoreId
  isIdent := hident
  isLiteral := hliteral
  lowers k l hk hl desired := by
    -- One level is spent on the expression itself.
    obtain ⟨k, rfl⟩ := Nat.exists_eq_add_of_le' hk
    obtain ⟨l, rfl⟩ := Nat.exists_eq_add_of_le' hl
    exact mirrors_expression (.of_eq hid)
      (hform (k + n) (l + m) (Nat.le_add_left _ _) (Nat.le_add_left _ _)) desired

/-! ### Brackets -/

/-- **Brackets.** Put around one of two twins, they leave twins, if the same is known of the node in
brackets as of the node that it wraps. -/
theorem Twin.bracket {ν : Node} (h : Twin scene n m c c') (hn : 0 < n)
    (halike : Alike scene c'.id ν.id) (hspan : scene.moved c'.span ν.span) :
    Twin scene n (m + 1) c (.paren ν c') where
  alike := h.alike.trans halike
  span := h.span.tail hspan
  coreId := h.coreId
  isIdent := h.isIdent
  isLiteral := h.isLiteral
  lowers := by
    intro k l hk hl desired
    obtain ⟨l, rfl⟩ := Nat.exists_eq_add_of_le' (Nat.le_trans (Nat.le_add_left 1 m) hl)
    obtain ⟨k, rfl⟩ := Nat.exists_eq_add_of_le' (Nat.le_trans hn hk)
    refine mirrors_of_run fun inside s hs lowered reporter hreports => ?_
    have htypes : (scene.reading inside).type? { s with lowered, reporter } ν.id =
        (scene.reading inside).type? s c.id := (h.alike.trans halike).type s hs
    have hconstants : (scene.reading inside).constant? { s with lowered, reporter } ν.id =
        (scene.reading inside).constant? s c.id := (h.alike.trans halike).constant s hs
    change Outcomes _ _ s ((expression (within k) c desired).runIn _ _)
      ((expression (within l) (.paren ν c') desired).runIn _ _)
    rcases htype : (scene.reading inside).type? s c.id with _ | type
    · -- Neither has a type.
      rw [runIn_expression_untyped htype,
        runIn_expression_untyped (e := .paren ν c') (htypes.trans htype)]
      trivial
    · rcases hconstant : (scene.reading inside).constant? s c.id with _ | v
      · -- The brackets are dropped, once they are recorded.
        rw [runIn_expression_form (e := .paren ν c') (htypes.trans htype)
          (hconstants.trans hconstant)]
        refine (h.lowers hk (Nat.le_of_add_le_add_right hl) desired).outcomes inside hs ?_
        split
        · exact ⟨lowered, reporter, rfl, hreports⟩
        · exact ⟨_, reporter, rfl, hreports⟩
      · -- Both are the same constant.
        rw [runIn_expression_constant htype hconstant,
          runIn_expression_constant (e := .paren ν c') (htypes.trans htype)
            (hconstants.trans hconstant)]
        exact (mirrors_ofExcept (toOption_lower v type desired _ _)).outcomes inside hs
          ⟨lowered, reporter, rfl, hreports⟩

/-- Brackets on the one side make a pair, with one more level of fuel there. -/
theorem Paired.bracket {ν : Node} (h : Paired scene n m c c') (hn : 0 < n)
    (halike : Alike scene c'.id ν.id) (hspan : scene.moved c'.span ν.span) :
    Paired scene n (m + 1) c (.paren ν c') := by
  refine ⟨h.toTwin.bracket hn halike hspan, ?_⟩
  rw [Expr.unparen_paren]
  exact (h.mono (Nat.le_refl n) (Nat.le_succ m)).core

end GoLua
