import GoLua.Proofs.Nesting.Rules

/-!
# How deep calls are nested

The calls that answer a request are at most `Request.nestingLimit` inside one another
(`Request.nesting_bounded`): four levels for each node and eight more, and one for each type that a recorded
type is written with. Whatever lowering makes of an expression takes fewer levels than the expression, though
it may have more nodes (`Ground.Takes`): a receive becomes a call with the channel in it, which takes two
levels more than the channel and one less than the receive. This is what the induction over levels is on
(`Ground.lowers_nested`).

Conversions are not part of the tree. One between pointers makes two more, of `*p` and of `v`, which are of
new nodes only; so what bounds them are the types (`Ground.agree_convert`), and these are needed for a limit:
with as many levels as there are pointers, a conversion fails (`Lower.fails_nested_convert`).
-/

namespace GoLua

open Lower

/-! ### Levels of trees -/

namespace Expr

/-- How many levels a node takes. A receive is lowered as a call of new nodes, and a selector of a method
as its receiver, which may be the address of another new selector. -/
def levels : Expr → Nat
  | .unary _ .recv _ => 3
  | .selector _ _ _ => 2
  | _ => 1

/-- How many levels are enough for a tree. -/
def weight (e : Expr) : Nat :=
  e.total levels

variable {e c : Expr}

/-- The levels of a node come on top of those of its parts. -/
theorem weight_eq (e : Expr) : e.weight = e.levels + sumOf weight e.parts :=
  total_eq levels e

theorem levels_pos (e : Expr) : 0 < e.levels := by
  unfold levels
  split <;> decide

theorem weight_pos (e : Expr) : 0 < e.weight := by
  have hpos := e.levels_pos
  rw [weight_eq]
  omega

/-- A part leaves the levels of its node unused. -/
theorem weight_add_levels_le (h : c ∈ e.parts) : c.weight + e.levels ≤ e.weight := by
  have hle := le_sumOf_of_mem (f := weight) h
  rw [weight_eq e]
  omega

/-- Brackets take levels of their own, so what is inside of them takes no more. -/
theorem weight_unparen_le (e : Expr) : e.unparen.weight ≤ e.weight := by
  fun_induction unparen e with
  | case1 n inner ih =>
    have hle := weight_add_levels_le (e := .paren n inner) (c := inner) (by simp [parts])
    omega
  | case2 => exact Nat.le_refl _

/-- Three levels for each node are enough. -/
theorem weight_le_size (e : Expr) : e.weight ≤ 3 * e.size := by
  induction e using partsInduction with
  | step e ih =>
    -- The sizes of the parts are counted with the same factor.
    have hparts : sumOf weight e.parts ≤ sumOf (fun c => 3 * c.size) e.parts := sumOf_le_sumOf ih
    have hscaled (es : List Expr) : sumOf (fun c => 3 * c.size) es = 3 * sumOf size es := by
      induction es with
      | nil => rfl
      | cons c es ih => simp only [sumOf_cons, ih]; omega
    have hlevels : e.levels ≤ 3 := by
      unfold levels
      split <;> decide
    rw [weight_eq, size_eq]
    rw [hscaled] at hparts
    omega

end Expr

namespace Ground

variable {G : Ground} {self other : Lowering} {convert : Converting} {e base operand func : Expr}
  {args : List Expr} {n : Nat}

/-- All nodes of an expression are nodes of the tree. -/
abbrev Has (G : Ground) (e : Expr) : Prop :=
  e.All fun c => G.tree c.id

/-- What a method may be called on: a tree, or a selector of an embedded field that was made for one. -/
inductive Receives (G : Ground) : Expr → Nat → Prop where
  | tree {e : Expr} (h : G.Has e) : Receives G e e.weight
  | embedded {ν ν' : Node} {base : Expr} {name : String} {selection : Selection}
      (h : G.Has base) (made : G.Made ν.id)
      (note : G.base.overlay.selections.get? ν.id = some selection)
      (isField : selection.kind = .fieldVal) :
      Receives G (.selector ν base (.ident ν' name)) (base.weight + 1)

/-- What lowering may be asked for, with the levels that it takes: trees, and what is made around them. -/
inductive Takes (G : Ground) : Expr → Nat → Prop where
  | receiver {e : Expr} {n : Nat} (h : G.Receives e n) : Takes G e n
  | address (ν : Node) {e : Expr} {n : Nat} (h : G.Receives e n) :
      Takes G (.unary ν .addrOf e) (n + 1)
  | pointee (ν : Node) {e : Expr} {n : Nat} (h : G.Receives e n) : Takes G (.star ν e) (n + 1)
  | name (ν : Node) (name : String) : Takes G (.ident ν name) 1
  /-- The call that a receive is lowered as. -/
  | receive {ν : Node} (ν' : Node) (name : String) {operand : Expr} (made : G.Made ν.id)
      (h : G.Has operand) : Takes G (.call ν (.ident ν' name) [operand] false) (operand.weight + 2)

/-- Two lowerings agree on all that takes `n` levels at most, from the ground on. -/
def Lowers (G : Ground) (self other : Lowering) (n : Nat) : Prop :=
  ∀ {s e k}, Later G.base s → (G.after s).Takes e k → k ≤ n → (G.after s).Same self other e

/-- Even a name takes a level. -/
theorem Receives.pos (h : G.Receives e n) : 0 < n := by
  cases h with
  | tree => exact e.weight_pos
  | embedded => omega

/-- Whatever is lowered takes a level. -/
theorem Takes.pos (h : G.Takes e n) : 0 < n := by
  cases h with
  | receiver h => exact h.pos
  | _ => omega

/-- The type of what a method is called on. -/
theorem Receives.agreeBy_typeOf (h : G.Receives e n) :
    G.AgreeBy (·.PointsWithin G.depth) (typeOf e) (typeOf e) := by
  cases h with
  | tree h => exact Ground.agreeBy_typeOf h.here
  | embedded _ made => exact agreeBy_typeOf_made made

/-- The trees that the ground knows need as many levels as they weigh. -/
theorem Lowers.tree (h : G.Lowers self other n) (hn : e.weight ≤ n) (htree : G.Has e) :
    G.Same self other e :=
  h (.refl _) (.receiver (.tree htree)) hn

/-- Where a node may be lowered with one level more, its parts may be with what is left. -/
theorem Lowers.part (h : G.Lowers self other n) (hn : e.weight ≤ n + 1) (htree : G.Has e) {c : Expr}
    (hc : c ∈ e.parts) : G.Same self other c := by
  have hle := Expr.weight_add_levels_le hc
  have hpos := e.levels_pos
  exact h.tree (by omega) (htree.part hc)

/-- A name takes a single level, whatever node it is of. -/
theorem Lowers.name (h : G.Lowers self other n) (hn : 0 < n) (ν : Node) (name : String) :
    G.Same self other (.ident ν name) :=
  h (.refl _) (.name ν name) hn

/-! ### Selectors -/

/-- A field is rendered from its base, along a path that both lowerings find in the same way. -/
theorem agree_field (h : G.Same self other base) (selection : Selection) (span : Span) :
    G.Agree (field self base selection span) (field other base selection span) := by
  refine .look (still_pathFrom _ _ _) fun path => ?_
  split
  · exact (agree_renderOne h false _).bind fun _ _ => .of_still (still_config _)
  · exact agree_renderOne h false _

/-- Where fields lead is found in the type that they start from. -/
theorem part_of_resolvePath {config : Config} {type : GoType} {index : List Nat} {path : FieldPath}
    (h : resolvePath config type index = .ok path) : type.Part path.type := by
  induction index generalizing type path with
  | nil =>
    cases h
    exact .self type
  -- The first step goes to a field of the struct, through a pointer if there is one; the rest goes
  -- on from it.
  | cons i rest ih =>
    obtain ⟨fields, field, onward, hfields, hplace, honward, rfl⟩ := resolvePath_cons_eq_ok_iff.mp h
    have hstruct : type.throughPointer.underlying = .struct fields := by
      unfold GoType.fields? at hfields
      split at hfields
      · next found hfound => rw [hfound, Option.some.inj hfields]
      · cases hfields
    have hfield : type.throughPointer.Part field.type :=
      (GoType.part_underlying _).trans
        (hstruct ▸ .field (List.mem_of_getElem? hplace) (.self field.type))
    have honwards : field.type.Part onward.type := ih honward
    exact (GoType.part_throughPointer type).trans (hfield.trans honwards)

/-- A path of fields leads to a type that points no deeper than the one it starts from. -/
theorem agreeBy_pathFrom {type : GoType} (h : type.PointsWithin G.depth) (index : List Nat)
    (span : Span) :
    G.AgreeBy (fun path => path.type.PointsWithin G.depth) (pathFrom type index span)
      (pathFrom type index span) := by
  refine .of_run fun {env s} hs => ⟨?_, fun path hpath => ?_⟩
  -- Looking for the path changes nothing, so all that is known stays known.
  · rw [still_pathFrom type index span env s]
    exact hs.after
  · have hrun : (pathFrom type index span).runIn env s =
        (ofExcept ((resolvePath env.config type index).mapError fun c =>
          .unsupported c span.start)).runIn env s := rfl
    rw [hrun] at hpath
    cases hfound : resolvePath env.config type index with
    | error construct => rw [hfound] at hpath; cases hpath
    | ok found =>
      rw [hfound] at hpath
      cases hpath
      exact h.part (part_of_resolvePath hfound)

/-- The expression that embedded fields lead to. A new selector is known to be one of a field from then
on. -/
theorem agreeBy_embeddedBase {α : Type} {Q : α → Prop} {selection : Selection}
    (hrecv : selection.recv.PointsWithin G.depth) (hbase : G.Has base) (span : Span)
    {f g : Expr → LowerM α}
    (hf : ∀ s r k, Later G.base s → (G.after s).Receives r k → k ≤ base.weight + 1 →
      (G.after s).AgreeBy Q (f r) (g r)) :
    G.AgreeBy Q (embeddedBase base selection span >>= f) (embeddedBase base selection span >>= g) := by
  unfold embeddedBase
  split
  · rw [pure_bind, pure_bind]
    exact hf G.base base _ (.refl _) (.tree hbase) (Nat.le_succ _)
  · simp only [bind_assoc, pure_bind]
    refine (agreeBy_pathFrom hrecv _ span).bind fun path hpath => ?_
    refine (agree_synthesizeNode hpath span).bind fun ν' _ => ?_
    -- The new selector starts from the type that the old one does.
    refine agreeBy_synthesizeSelector hpath span (by exact hrecv) fun s ν hs hmade hnote => ?_
    exact hf s _ _ hs (.embedded hbase hmade hnote rfl) (Nat.le_refl _)

/-- A copy of a receiver, or of what it points to. -/
theorem agree_receiverValue {recv : Expr} {type : GoType} (h : G.Same self other recv)
    (hstar : ∀ ν, G.Same self other (.star ν recv)) (htype : type.PointsWithin G.depth) (span : Span) :
    G.Agree (receiverValue self recv type span) (receiverValue other recv type span) := by
  unfold receiverValue
  split
  · next elem helem =>
    have helemWithin := htype.part (GoType.part_of_pointerElem? helem)
    exact (agree_synthesizeNode helemWithin span).bind fun ν _ => agree_implicitCopy (hstar ν) elem
  · exact agree_implicitCopy h type

/-- The receiver of a method may get one new node around it, an address or a pointee, and no more.
-/
theorem agree_receiver (h : G.Lowers self other n) (hn : base.weight + 2 ≤ n) {selection : Selection}
    (hrecv : selection.recv.PointsWithin G.depth) (hbase : G.Has base)
    (span : Span) :
    G.Agree (receiver self base selection span) (receiver other base selection span) := by
  refine agreeBy_embeddedBase hrecv hbase span fun s r k hs hr hk => ?_
  have hhere : (G.after s).Same self other r := h hs (.receiver hr) (by omega)
  refine hr.agreeBy_typeOf.bind fun type htype => ?_
  refine .ite (fun _ => hhere none) fun _ => .ite (fun _ => ?_) fun _ => ?_
  · -- The method wants a pointer: the receiver is one, or its address is taken.
    refine .ite (fun _ => hhere none) fun hpointer => ?_
    have hnew := htype.pointer (Bool.eq_false_iff.mpr hpointer) G.pos
    exact (agree_synthesizeNode hnew span).bind fun ν _ => h hs (.address ν hr) (by omega) none
  · -- It wants a value, which is copied and may be put into a box.
    have hstar (ν : Node) : (G.after s).Same self other (.star ν r) :=
      h hs (.pointee ν hr) (by omega)
    refine (agree_receiverValue hhere hstar htype span).bind fun value _ => ?_
    refine .look (still_config _) fun boxed => .ite (fun _ => ?_) fun _ => .pure trivial
    exact agree_renderAs false _ (by simp [SameOperand])

/-- A selector is a name, a field or a method; only the last of them makes new nodes. -/
theorem agree_selector (h : G.Lowers self other n) (hn : base.weight + 2 ≤ n) (he : G.tree e.id)
    (hbase : G.Has base) (sel : Expr) :
    G.Agree (selector self e base sel) (selector other e base sel) := by
  refine (agreeBy_selectionOf he).bind fun selection hselection => ?_
  cases selection with
  | none => exact agree_identifier _ _
  -- Of the three kinds only a method may put nodes around its receiver.
  | some selection =>
    dsimp only
    cases selection.kind with
    | fieldVal => exact agree_field (h.tree (by omega) hbase) selection e.span
    | methodVal =>
      refine (agree_receiver h hn (hselection selection rfl) hbase e.span).bind fun recv _ => ?_
      exact agree_renderAs false _ (by simp [SameOperand])
    | methodExpr => exact .pure trivial

/-- A selector that is known to be one of a field. -/
theorem agree_embedded {ν : Node} {selection : Selection} (h : G.Same self other base)
    (hmade : G.Made ν.id) (hnote : G.base.overlay.selections.get? ν.id = some selection)
    (hkind : selection.kind = .fieldVal) (sel : Expr) :
    G.Agree (selector self (.selector ν base sel) base sel)
      (selector other (.selector ν base sel) base sel) := by
  -- The selection that was noted with the new node is the one that is looked up, since no later
  -- step forgets a note.
  have hlook : G.AgreeBy (· = some selection) (selectionOf (.selector ν base sel))
      (selectionOf (.selector ν base sel)) := by
    refine .of_look (still_selectionOf _) fun {env s} hs found hfound => ?_
    cases hfound
    show env.selection? s ν.id = some selection
    rw [Env.selection?, (hs.later.agrees ν.id hmade.old).selections, hnote]
    rfl
  refine hlook.bind fun found hfound => ?_
  subst hfound
  dsimp only
  rw [hkind]
  exact agree_field h selection ν.span

/-! ### Receives -/

/-- The call that a receive is lowered as takes two levels more than the channel. -/
theorem agree_receive (h : G.Lowers self other n) (hn : operand.weight + 2 ≤ n)
    (hoperand : G.Has operand) (e : Expr) :
    G.Agree (receive self e operand) (receive other e operand) := by
  -- The channel is a part of the tree, and so is its element, but the pair of a value and a sign is
  -- a new type.
  refine (agreeBy_typeOf hoperand.here).bind fun chanType hchan => .look (still_typeOf e) fun type => ?_
  dsimp only
  split
  · next elem helem =>
    have hresult : (GoType.tuple [elem, .basic .bool]).PointsWithin G.depth := by
      have hpart : chanType.Part elem :=
        (GoType.part_underlying chanType).trans (helem ▸ .received (.self elem))
      refine .tuple (List.forall_mem_cons.mpr ⟨hchan.part hpart, List.forall_mem_singleton.mpr ?_⟩)
      exact GoType.pointsWithin_basic .bool G.depth
    refine (agreeBy_synthesizeUse _ _ (GoType.pointsWithin_func _ _) e.span).bind ?_
    rintro _ ⟨ν', rfl⟩
    refine agreeBy_synthesizeSuspending hresult e.span fun s ν hs hmade => ?_
    exact (h hs (.receive ν' _ hmade hoperand) hn none).bind fun _ _ => .pure trivial
  · exact .unsupported

/-- A unary operator takes its operand as it is, an address looks inside of brackets, and a receive
becomes a call. -/
theorem agree_unary (h : G.Lowers self other n) {ν : Node} {op : UnaryOp}
    (hn : (Expr.unary ν op operand).weight ≤ n + 1)
    (htree : G.Has (.unary ν op operand)) :
    G.Agree (unary self (.unary ν op operand) op operand)
      (unary other (.unary ν op operand) op operand) := by
  have hmem : operand ∈ (Expr.unary ν op operand).parts := by simp [Expr.parts]
  have hoperand : G.Has operand := htree.part hmem
  have hle := Expr.weight_add_levels_le hmem
  have hsame := h.part hn htree hmem
  unfold unary
  split
  · -- What is inside of brackets takes no more than the whole.
    have hunparen := operand.weight_unparen_le
    simp only [Expr.levels] at hle
    refine agree_addressOf hsame (h.tree (by omega) hoperand.unparen) (fun c hc => ?_) _
    exact h.part (by omega) hoperand.unparen hc
  · simp only [Expr.levels] at hle
    exact agree_receive h (by omega) hoperand _
  · exact agree_unaryOperator hsame _ _

/-! ### Calls -/

/-- Arguments that are passed on: those of the call, or the elements of the tuple that the only one is. -/
theorem agreeBy_effectiveArgs (h : G.Lowers self other n) (hn : 0 < n)
    (hargs : ∀ a ∈ args, a.weight ≤ n) (htree : ∀ a ∈ args, G.Has a) :
    G.AgreeBy (∀ a ∈ ·, G.Same self other a) (effectiveArgs self args) (effectiveArgs other args) := by
  -- What is spread is a single argument, whose type is a tuple; each component gets a name of its
  -- own.
  have hsame : ∀ a ∈ args, G.Same self other a := fun a ha => h.tree (hargs a ha) (htree a ha)
  have hspread : G.AgreeBy (∀ types ∈ ·, ∀ t ∈ types, t.PointsWithin G.depth) (spreadTypes args)
      (spreadTypes args) := by
    unfold spreadTypes
    split
    · next single =>
      refine (agreeBy_typeOf (htree single (by simp)).here).bind fun type htype => ?_
      split
      · next types =>
        refine .pure fun found hfound t ht => ?_
        split at hfound
        · cases hfound
          exact htype.part (.element ht (.self t))
        · cases hfound
      · exact .pure (by simp)
    · exact .pure (by simp)
  refine hspread.bind fun types htypes => ?_
  split
  · next types single rest =>
    -- The tuple goes into a temporary once, and the names of its components are new nodes of one
    -- level.
    refine (hsame single (by simp) none).bind fun value _ => ?_
    refine (AgreeBy.keepInTemporary "_tuple" _).bind fun tuple _ => agreeBy_mapM fun p hp => ?_
    have hwithin := htypes types rfl p.1 (List.fst_mem_of_mem_zipIdx hp)
    refine (agreeBy_synthesizeUse _ _ hwithin single.span).imp ?_
    rintro _ ⟨ν, rfl⟩
    exact h.name hn ν _
  · exact .pure hsame

/-- Arguments are lowered in order; the components of a spread tuple are names. -/
theorem agree_arguments (h : G.Lowers self other n) (hn : 0 < n)
    (hargs : ∀ a ∈ args, a.weight ≤ n) (htree : ∀ a ∈ args, G.Has a)
    (e : Expr) (sig : Signature) (ellipsis : Bool) :
    G.Agree (arguments self e sig args ellipsis) (arguments other e sig args ellipsis) := by
  refine (agreeBy_effectiveArgs h hn hargs htree).bind fun passed hpassed => ?_
  refine .look (still_packedElem e sig ellipsis) fun packed => ?_
  refine (agree_inSequence (fun p hp => ?_) "_arg" {}).bind fun parts _ => ?_
  · refine .look (still_argType sig packed p.1 p.2) fun type => ?_
    exact (agree_implicitCopy (hpassed p.1 (List.fst_mem_of_mem_zipIdx hp)) type).bind
      fun _ _ => .pure trivial
  · split <;> exact .pure trivial

/-- Where a call is placed depends on what is known of it, not on how its parts were lowered. -/
theorem agree_placeCall (e : Expr) (sig : Signature) (text : String) :
    G.Agree (placeCall e sig text) (placeCall e sig text) := by
  refine .look (still_isSuspending e) fun suspends => .ite (fun _ => ?_) fun _ => .pure trivial
  refine AgreeBy.bind (Q := fun _ => True) (.of_quiet fun _ _ => ⟨rfl, rfl⟩) fun step _ => ?_
  refine .ite (fun _ => (AgreeBy.leave _ none none).bind fun _ _ => .pure trivial) fun _ => ?_
  exact (AgreeBy.newTemporary "_r").bind fun _ _ => (AgreeBy.leave _ none none).bind fun _ _ => .pure trivial

/-- A call is its arguments and the place where its text is put. -/
theorem agree_callOf (h : G.Lowers self other n) (hn : 0 < n) (hargs : ∀ a ∈ args, a.weight ≤ n)
    (htree : ∀ a ∈ args, G.Has a) (e : Expr) (sig : Signature)
    (callee : String) (ellipsis : Bool) :
    G.Agree (callOf self e sig callee args ellipsis) (callOf other e sig callee args ellipsis) :=
  (agree_arguments h hn hargs htree e sig ellipsis).bind fun _ _ => agree_placeCall e sig _

/-- Without a selector before it, a call lowers its function first. -/
theorem agree_plainCall (h : G.Lowers self other n) (hn : 0 < n) (hfunc : G.Same self other func)
    (hargs : ∀ a ∈ args, a.weight ≤ n) (htree : ∀ a ∈ args, G.Has a)
    (e : Expr) (ellipsis : Bool) :
    G.Agree (plainCall self e func args ellipsis) (plainCall other e func args ellipsis) := by
  refine .look (still_signatureOf func) fun sig => (hfunc none).bind fun callee _ => ?_
  exact agree_callOf h hn hargs htree e sig _ ellipsis

/-- A conversion of the host lowers its first argument only. -/
theorem agree_firstArgument (h : ∀ a ∈ args, G.Same self other a) (e : Expr) :
    G.Agree (firstArgument self e args) (firstArgument other e args) := by
  cases args with
  | nil => exact .unsupported
  | cons arg rest => exact h arg (by simp) none

/-- A function in a field of a host object gets its arguments as they are passed out. -/
theorem agree_hostFieldCall (hfunc : G.Same self other func)
    (h : ∀ a ∈ args, G.Same self other a) :
    G.Agree (hostFieldCall self func args) (hostFieldCall other func args) := by
  refine .look (still_signatureOf func) fun sig => (hfunc none).bind fun callee _ => ?_
  refine (agree_externalizedArgs h).bind fun passed _ => ?_
  dsimp only
  split
  · exact .pure trivial
  · exact .of_still (still_config _)
  · exact (AgreeBy.reportError _ _).bind fun _ _ => .pure trivial

/-- A call of a selector is a plain call, a call of a method, or a call that the host knows. -/
theorem agree_selectorCall (h : G.Lowers self other n) {ν : Node} {sel : Expr}
    (hfunc : func.weight ≤ n) (hfuncTree : G.Has func)
    (hselector : func.unparen = .selector ν base sel) (hargs : ∀ a ∈ args, a.weight ≤ n)
    (htree : ∀ a ∈ args, G.Has a) (e : Expr) (ellipsis : Bool) :
    G.Agree (selectorCall self e func base sel args ellipsis)
      (selectorCall other e func base sel args ellipsis) := by
  have hunparen := func.weight_unparen_le
  have hcoreTree := hfuncTree.unparen
  have hbaseWeight : base.weight + 2 ≤ n := by
    have hle := Expr.weight_add_levels_le (e := func.unparen) (c := base) (by simp [hselector, Expr.parts])
    simp only [hselector, Expr.levels] at hle hunparen
    omega
  have hbase : G.Has base := hcoreTree.part (by simp [hselector, Expr.parts])
  have hsame : ∀ a ∈ args, G.Same self other a := fun a ha => h.tree (hargs a ha) (htree a ha)
  have hplain := agree_plainCall h (by omega) (h.tree hfunc hfuncTree) hargs htree e ellipsis
  refine (agreeBy_selectionOf hcoreTree.here).bind fun selection hselection => ?_
  cases selection with
  -- Without a selection the selector is a qualified name: of the host, or of any other package.
  | none =>
    refine .look (still_objectOf sel) fun obj => .look (still_config _) fun host => ?_
    refine .ite (fun _ => ?_) fun _ => hplain
    split
    · exact .pure trivial
    · exact agree_firstArgument hsame e
    · exact hplain
  | some selection =>
    -- A method gets its receiver; a field of a host object is called on the object; all else is a
    -- plain call.
    dsimp only
    cases selection.kind with
    | methodVal =>
      refine .look (still_signatureOf func) fun sig => ?_
      refine (agree_receiver h hbaseWeight (hselection selection rfl) hbase _).bind fun recv _ => ?_
      refine .look (still_config _) fun host => .ite (fun _ => ?_) fun _ => ?_
      · exact agree_hostMethod hsame e recv _ ellipsis
      · exact agree_callOf h (by omega) hargs htree e sig _ ellipsis
    | fieldVal =>
      refine .look (still_pathFrom _ _ _) fun path => .ite (fun _ => ?_) fun _ => hplain
      exact agree_hostFieldCall (h.tree (by omega) hcoreTree) hsame
    | methodExpr => exact hplain

/-- Two ways to convert agree on trees that take fewer than `n` levels. -/
def Converts (G : Ground) (convert convert' : Converting) (n : Nat) : Prop :=
  ∀ {value source target}, value.weight < n → G.Has value → source.PointsWithin G.depth →
    target.PointsWithin G.depth →
      G.Agree (convert value source target) (convert' value source target)

/-- Calls, whatever is called. -/
theorem agree_callWith (h : G.Lowers self other n) (hconvert : G.Converts convert (convertFrom other) n)
    (htype : G.AgreeBy (·.PointsWithin G.depth) (typeOf e) (typeOf e))
    (hargs : ∀ a ∈ args, a.weight < n) (htree : ∀ a ∈ args, G.Has a) {ellipsis : Bool}
    (hplain : G.Agree (plainCall self e func args ellipsis) (plainCall other e func args ellipsis))
    (hselector : ∀ ν base sel, func.unparen = .selector ν base sel →
      G.Agree (selectorCall self e func base sel args ellipsis)
        (selectorCall other e func base sel args ellipsis)) :
    G.Agree (callWith self convert e func args ellipsis) (call other e func args ellipsis) := by
  have hsame : ∀ a ∈ args, G.Same self other a := fun a ha =>
    h.tree (Nat.le_of_lt (hargs a ha)) (htree a ha)
  refine .look (still_isTypeExpr func) fun denotesType => .ite (fun _ => ?_) fun _ => ?_
  -- A call of a type is a conversion of its argument.
  · split
    · next value rest =>
      have hvalue : G.Has value := htree value (by simp)
      refine htype.bind fun target htarget => (agreeBy_typeOf hvalue.here).bind fun source hsource => ?_
      exact hconvert (hargs value (by simp)) hvalue hsource htarget
    · exact .unsupported
  -- Otherwise the form of the function decides, brackets aside.
  · generalize hcore : func.unparen = core at hselector
    cases core with
    | ident =>
      refine .look (still_objectOf _) fun obj => ?_
      refine .ite (fun _ => agree_builtin hsame _ _ ellipsis) fun _ => ?_
      exact .look (still_config _) fun host => .ite (fun _ => agree_firstArgument hsame _) fun _ => hplain
    | selector ν base sel => exact hselector ν base sel rfl
    | _ => exact hplain

/-- Calls of the tree. -/
theorem agree_call (h : G.Lowers self other n) (hconvert : G.Converts convert (convertFrom other) n)
    {ν : Node} {ellipsis : Bool} (hn : (Expr.call ν func args ellipsis).weight ≤ n + 1)
    (htree : G.Has (.call ν func args ellipsis)) :
    G.Agree (callWith self convert (.call ν func args ellipsis) func args ellipsis)
      (call other (.call ν func args ellipsis) func args ellipsis) := by
  have hfuncTree : G.Has func := htree.part (by simp [Expr.parts])
  have hargsTree : ∀ a ∈ args, G.Has a := fun a ha => htree.part (by simp [Expr.parts, ha])
  have hweight : (Expr.call ν func args ellipsis).weight = 1 + (func.weight + sumOf Expr.weight args) :=
    Expr.weight_eq _
  have hpos := func.weight_pos
  -- An argument is lighter than the call, because the call has a level of its own.
  have hargs : ∀ a ∈ args, a.weight < n := fun a ha => by
    have hle := le_sumOf_of_mem (f := Expr.weight) ha
    omega
  have hargsWeight : ∀ a ∈ args, a.weight ≤ n := fun a ha => Nat.le_of_lt (hargs a ha)
  have hfunc : G.Same self other func := h.tree (by omega) hfuncTree
  exact agree_callWith h hconvert (agreeBy_typeOf htree.here) hargs hargsTree
    (agree_plainCall h (by omega) hfunc hargsWeight hargsTree _ ellipsis)
    fun ν base sel hcore =>
      agree_selectorCall h (by omega) hfuncTree hcore hargsWeight hargsTree _ ellipsis

/-- The call that a receive is lowered as: what is called is a name. -/
theorem agree_receiveCall (h : G.Lowers self other n) (hconvert : G.Converts convert (convertFrom other) n)
    {ν : Node} (ν' : Node) (name : String) (hmade : G.Made ν.id) (hn : operand.weight < n)
    (hoperand : G.Has operand) :
    G.Agree
      (callWith self convert (.call ν (.ident ν' name) [operand] false) (.ident ν' name) [operand] false)
      (call other (.call ν (.ident ν' name) [operand] false) (.ident ν' name) [operand] false) := by
  have hpos : 0 < n := Nat.zero_lt_of_lt hn
  have htree : ∀ a ∈ [operand], G.Has a := by simpa using hoperand
  have hargs : ∀ a ∈ [operand], a.weight < n := by simpa using hn
  -- The callee is the name of a helper, which is a new node and takes a level.
  have htype := agreeBy_typeOf_made (e := .call ν (.ident ν' name) [operand] false) hmade
  have hplain := agree_plainCall h hpos (h.name hpos ν' name) (fun a ha => Nat.le_of_lt (hargs a ha)) htree
    (.call ν (.ident ν' name) [operand] false) false
  exact agree_callWith h hconvert htype hargs htree hplain fun _ _ _ hcore => by cases hcore

/-! ### Expressions -/

/-- The body of a function literal comes from the source of bodies, which both lowerings ask in the
same way. -/
theorem agree_functionLiteral (e : Expr) (body : Nat) :
    G.Agree (functionLiteral e body) (functionLiteral e body) := by
  refine .look (still_typeOf e) fun type => .look (fun _ _ => rfl) fun source => ?_
  split
  · exact .unsupported
  · exact .unsupported
  · exact (AgreeBy.requestBody _ body _).bind fun _ _ => .pure trivial

/-- An expression by its form, if the lowerings agree on what takes one level less. -/
theorem agree_form (h : G.Lowers self other n) (hconvert : G.Converts convert (convertFrom other) n)
    (hn : e.weight ≤ n + 1) (htree : G.Has e) (desired : Option GoType) :
    G.Agree (formWith self convert e desired) (byForm other e desired) := by
  -- Every form has its rule, and every rule gets lowerings that agree on the parts.
  have hpart : ∀ c ∈ e.parts, G.Same self other c := fun c hc => h.part hn htree hc
  cases e with
  | basicLit | typeExpr => exact .unsupported
  | ident ν name => exact agree_identifier _ name
  | unary ν op operand => exact agree_unary h hn htree
  | binary ν op left right =>
    exact agree_binary (hpart left (by simp [Expr.parts])) (hpart right (by simp [Expr.parts])) _ op
  | index ν base place =>
    exact agree_index (hpart base (by simp [Expr.parts])) (hpart place (by simp [Expr.parts])) _
  | slice ν base low high max =>
    exact agree_slice (hpart base (by simp [Expr.parts]))
      (fun c hc => hpart c (List.mem_cons_of_mem base hc)) _
  | selector ν base sel =>
    have hle := Expr.weight_eq (.selector ν base sel)
    have hpos := sel.weight_pos
    simp only [Expr.levels, Expr.parts, sumOf_cons, sumOf_nil] at hle
    exact agree_selector h (by omega) htree.here (htree.part (by simp [Expr.parts])) sel
  | call ν func args ellipsis => exact agree_call h hconvert hn htree
  | compositeLit ν elements => exact agree_composite hpart _
  | typeAssert ν base asserted => exact agree_typeAssertion (hpart base (by simp [Expr.parts])) _ asserted
  | paren ν inner => exact hpart inner (by simp [Expr.parts]) desired
  | star ν inner => exact agree_dereference (hpart inner (by simp [Expr.parts])) _
  | funcLit ν body => exact agree_functionLiteral _ body

/-- What agrees by its form agrees as an expression. -/
theorem same_expression
    (hform : ∀ desired, G.Agree (formWith self convert e desired) (byForm other e desired)) :
    G.Same (expressionWith self convert) (expression other) e := by
  intro desired
  refine .look (still_typeOf e) fun type => .look (still_constantOf e) fun c => ?_
  cases c with
  | some c => exact .of_still (.ofExcept _)
  | none => exact (AgreeBy.recordLowered e).bind fun _ _ => hform desired

/-! ### Conversions -/

/-- A new variable is a name that may be of any node. -/
theorem agreeBy_synthesizeVar {type : GoType} (h : type.PointsWithin G.depth) (name : String)
    (span : Span) :
    G.AgreeBy (fun e => ∃ ν, e = .ident ν name) (synthesizeVar name type span)
      (synthesizeVar name type span) :=
  agreeBy_synthesizeUse name (.var name type) h span

/-- A conversion, if the two that it makes of one between pointers agree. -/
theorem agree_convertOnce {source target : GoType} {inner : Converting} (h : G.Same self other e)
    (hsource : source.PointsWithin G.depth) (htarget : target.PointsWithin G.depth)
    (hinner : ∀ sourceElem targetElem, source.pointerElem? = some sourceElem →
      target.pointerElem? = some targetElem → ∀ ν ν' name,
        G.Agree (inner (.star ν (.ident ν' name)) sourceElem targetElem)
            (convertFrom other (.star ν (.ident ν' name)) sourceElem targetElem) ∧
          G.Agree (inner (.ident ν' name) targetElem sourceElem)
            (convertFrom other (.ident ν' name) targetElem sourceElem)) :
    G.Agree (convertOnce self inner e source target) (convertFrom other e source target) := by
  -- The rules below stand in the order of the conversion: equal types, `nil`, then by the target.
  rw [← convertOnce_convertFrom other]
  refine .ite (fun _ => h none) fun _ => ?_
  refine .ite (fun _ => .look (still_zeroFor e target) fun zero => .pure trivial) fun _ => ?_
  generalize hunder : target.underlying = under
  cases under with
  | basic kind => exact agree_toKind h source target kind
  | slice => exact agree_toSlice h source target
  | pointer targetElem =>
    refine .ite (fun _ => h none) fun _ => ?_
    generalize hpointer : source.pointerElem? = elem
    cases elem with
    | none => exact .fail _
    | some sourceElem =>
      have htargetElem : target.pointerElem? = some targetElem := by rw [GoType.pointerElem?, hunder]
      have hpair := hinner sourceElem targetElem hpointer htargetElem
      refine (h none).bind fun value _ => (AgreeBy.newLocal "_ptr").bind fun pointer _ => ?_
      refine (AgreeBy.newLocal "_v").bind fun parameter _ => ?_
      -- Two new names: the pointer, and the parameter of the setter.
      refine (agreeBy_synthesizeVar hsource pointer e.span).bind ?_
      rintro _ ⟨ν', rfl⟩
      have hsourceElem := hsource.part (GoType.part_of_pointerElem? hpointer)
      refine (agree_synthesizeNode hsourceElem e.span).bind fun ν _ => ?_
      -- The getter converts what the pointer points to, and the setter converts the other way
      -- round.
      refine (hpair ν ν' pointer).1.bind fun getter _ => ?_
      refine (agreeBy_synthesizeVar (htarget.part (GoType.part_of_pointerElem? htargetElem)) parameter
        e.span).bind ?_
      rintro _ ⟨ν'', rfl⟩
      exact (hpair ν ν'' parameter).2.bind fun setter _ => .pure trivial
  | interface => exact .ite (fun _ => h none) fun _ => agree_implicitCopy h target
  | _ => exact agree_implicitCopy h target

/-- Names take one level. -/
theorem same_ident (ν : Node) (name : String) :
    G.Same (expressionWith self convert) (expression other) (.ident ν name) :=
  same_expression fun _ => agree_identifier _ name

/-- What a name points to takes two. -/
theorem same_star_ident (deepest : Calls) (n m : Nat) (ν ν' : Node) (name : String) :
    G.Same (nested deepest (n + 2)).lower (within (m + 2)) (.star ν (.ident ν' name)) :=
  same_expression fun _ => agree_dereference (same_ident ν' name) _

/-- **Conversions.** One takes a level for each pointer that both types start with, because the conversions
that it makes are of what these point to. What they convert are names, or what names point to. -/
theorem agree_convert (deepest : Calls) {m k j : Nat} (hm : 2 ≤ m) {source target : GoType}
    (hj : min source.pointerDepth target.pointerDepth ≤ j) (hk : j + 2 ≤ k)
    (hsource : source.PointsWithin G.depth) (htarget : target.PointsWithin G.depth)
    (h : G.Same (nested deepest k).lower (within m) e) :
    G.Agree ((nested deepest (k + 1)).convert e source target)
      (convertFrom (within m) e source target) := by
  induction j generalizing k e source target with
  -- A type without pointers has no element to convert, so nothing is asked of `inner`.
  | zero =>
    refine agree_convertOnce h hsource htarget fun sourceElem targetElem hs ht => ?_
    rw [GoType.pointerDepth_of_pointerElem? hs, GoType.pointerDepth_of_pointerElem? ht] at hj
    omega
  | succ j ih =>
    -- Each pointer takes two levels, one for the pointee and one for the name in it.
    obtain ⟨k, rfl⟩ : ∃ k', k = k' + 1 := ⟨k - 1, by omega⟩
    obtain ⟨l, rfl⟩ : ∃ l, k = l + 2 := ⟨k - 2, by omega⟩
    obtain ⟨m, rfl⟩ : ∃ m', m = m' + 2 := ⟨m - 2, by omega⟩
    refine agree_convertOnce h hsource htarget fun sourceElem targetElem hs ht ν ν' name => ?_
    have hsourceElem := hsource.part (GoType.part_of_pointerElem? hs)
    have htargetElem := htarget.part (GoType.part_of_pointerElem? ht)
    rw [GoType.pointerDepth_of_pointerElem? hs, GoType.pointerDepth_of_pointerElem? ht] at hj
    exact ⟨ih (by omega) (by omega) hsourceElem htargetElem (same_star_ident deepest l m ν ν' name),
      ih (by omega) (by omega) htargetElem hsourceElem (same_ident ν' name)⟩

/-! ### Levels that are enough -/

/-- **Levels.** What takes `c` levels in the tree is lowered with `c` levels, and as many more as pointers
are nested in types, as it is by the program. -/
theorem lowers_nested (deepest : Calls) {c n m : Nat} (hn : c + G.depth + 3 ≤ n) (hm : c ≤ m) :
    G.Lowers (nested deepest n).lower (within m) c := by
  induction c using Nat.strongRecOn generalizing G n m with
  | ind c ih =>
    intro s e k hs he hk
    -- Everything takes a level, so there is one to spend on the expression itself.
    have hpos := he.pos
    obtain ⟨n, rfl⟩ : ∃ n', n = n' + 1 := ⟨n - 1, by omega⟩
    obtain ⟨m, rfl⟩ : ∃ m', m = m' + 1 := ⟨m - 1, by omega⟩
    have hdepth : (G.after s).depth = G.depth := rfl
    have hbelow : (G.after s).Lowers (nested deepest n).lower (within m) (c - 1) :=
      ih (c - 1) (by omega) (by omega) (by omega)
    have hreceiver {x : Expr} {l : Nat} (hx : (G.after s).Receives x l) (hl : l ≤ c - 1) :
        (G.after s).Same (nested deepest n).lower (within m) x :=
      hbelow (.refl s) (.receiver hx) hl
    -- A conversion takes a level too, and what it converts is lowered inside of it.
    have hconvert : (G.after s).Converts (nested deepest n).convert (convertFrom (within m)) (c - 1) := by
      intro value source target hvalue htree hsource htarget
      obtain ⟨l, rfl⟩ : ∃ l, n = l + 1 := ⟨n - 1, by omega⟩
      have hvaluePos := value.weight_pos
      have hinner : (G.after s).Lowers (nested deepest l).lower (within m) (c - 2) :=
        ih (c - 2) (by omega) (by omega) (by omega)
      have hmin : min source.pointerDepth target.pointerDepth ≤ G.depth :=
        Nat.le_trans (Nat.min_le_left _ _) (hsource source (.self source))
      exact agree_convert deepest (by omega) hmin (by omega) hsource htarget
        (hinner.tree (by omega) htree)
    refine same_expression fun desired => ?_
    cases he with
    | name ν name => exact agree_identifier _ name
    | receive ν' name hmade hoperand =>
      exact agree_receiveCall hbelow hconvert ν' name hmade (by omega) hoperand
    | pointee ν h => exact agree_dereference (hreceiver h (by omega)) _
    | receiver h =>
      cases h with
      | tree htree => exact agree_form hbelow hconvert (by omega) htree desired
      | embedded hbase hmade hnote hkind =>
        exact agree_embedded (hreceiver (.tree hbase) (by omega)) hmade hnote hkind _
    | @address ν operand _ h =>
      have hoperand := hreceiver h (by omega)
      cases h with
      | tree htree =>
        have hunparen := operand.weight_unparen_le
        refine agree_addressOf hoperand (hbelow.tree (by omega) htree.unparen) (fun x hx => ?_) _
        exact hbelow.part (by omega) htree.unparen hx
      | @embedded ν₁ ν' base name selection hbase =>
        have hbasePos := base.weight_pos
        refine agree_addressOf hoperand hoperand (fun x hx => ?_) _
        simp only [Expr.unparen, Expr.parts, List.mem_cons, List.not_mem_nil, or_false] at hx
        rcases hx with rfl | rfl
        · exact hreceiver (.tree hbase) (by omega)
        · exact hbelow.name (by omega) ν' name

end Ground

/-! ### Requests -/

/-- A quantity at a node is not more than what it comes to over the tree. -/
theorem Expr.all_le_total (f : Expr → Nat) (e : Expr) {n : Nat} (h : e.total f ≤ n) :
    e.All fun c => f c ≤ n := by
  induction e using partsInduction with
  | step e ih =>
    rw [total_eq] at h
    refine .intro (by omega) fun c hc => ih c hc ?_
    have hle := le_sumOf_of_mem (f := total f) hc
    omega

/-- The sizes of the types that are recorded for a node: its own, and the one that its selector starts
from. -/
def Env.typeSizes (env : Env) (s : FunctionState) (id : NodeId) : Nat :=
  (env.type? s id).elim 0 GoType.size +
    (env.selection? s id).elim 0 fun selection => selection.recv.size

namespace Request

variable {request : Request} {env : Env} {s : FunctionState} {e : Expr}

/-- The trees that a request comes with. -/
def trees : Request → List Expr
  | .expression e _ | .conversion e _ | .implicit e _ | .implicitCopy e _ => [e]
  | .template _ _ operands => operands.filterMap fun
    | .expr e => some e
    | _ => none

/-- The size of the type that a conversion is asked for. -/
def targetSize : Request → Nat
  | .conversion _ target => target.size
  | _ => 0

/-- How deep calls are nested at most: four levels for each node and eight more, and one for each type that
a type recorded for a node is written with. -/
def nestingLimit (request : Request) (env : Env) (s : FunctionState) : Nat :=
  request.depth + sumOf (fun e => e.total fun c => env.typeSizes s c.id) request.trees +
    request.targetSize

/-- The nodes whose recorded types have at most a size. -/
def ground (env : Env) (s : FunctionState) (bound : Nat) : Ground where
  tree id := env.typeSizes s id ≤ bound
  depth := bound + 1
  base := s
  pos := Nat.succ_pos bound

/-- What is recorded at the start of a run holds of it. -/
theorem ground_holds (env : Env) (s : FunctionState) (bound : Nat) :
    (ground env s bound).Holds env s where
  later := .refl s
  types id hid type htype := by
    have hle : env.typeSizes s id ≤ bound := hid
    rw [Env.typeSizes, htype, Option.elim_some] at hle
    exact type.pointsWithin_size.mono (show type.size ≤ bound + 1 by omega)
  selections id hid selection hselection := by
    have hle : env.typeSizes s id ≤ bound := hid
    rw [Env.typeSizes, hselection, Option.elim_some] at hle
    exact selection.recv.pointsWithin_size.mono (show selection.recv.size ≤ bound + 1 by omega)

/-- The operands of a template are counted together. -/
theorem size_le_operandsSize {operands : List Operand} (h : .expr e ∈ operands) :
    e.size ≤ operandsSize operands := by
  induction operands with
  | nil => cases h
  | cons o rest ih =>
    rcases List.mem_cons.mp h with rfl | h
    · exact Nat.le_add_right _ _
    · have hle := ih h
      cases o with
      | expr e' => exact Nat.le_trans hle (Nat.le_add_left _ _)
      | _ => exact hle

/-- The levels that a request has leave some over for each of its trees. -/
theorem weight_add_le_depth (h : e ∈ request.trees) : e.weight + 8 ≤ request.depth := by
  have hweight := e.weight_le_size
  cases request with
  | template parens pattern operands =>
    obtain ⟨o, ho, hexpr⟩ := List.mem_filterMap.mp h
    cases o with
    | expr e' =>
      cases hexpr
      have hle := size_le_operandsSize ho
      rw [depth, nestingBound]
      omega
    | _ => cases hexpr
  | _ =>
    obtain rfl := List.mem_singleton.mp h
    rw [depth, nestingBound]
    omega

/-- **Levels that are enough for a request.** -/
theorem agree_runWith {G : Ground} (deepest : Calls) {n : Nat} (hn : request.depth + G.depth ≤ n + 1)
    (htrees : ∀ e ∈ request.trees, G.Has e)
    (htarget : ∀ e target, request = .conversion e target → target.PointsWithin G.depth) :
    G.Agree (request.runWith (nested deepest n)) request.run := by
  -- Every tree of the request is light enough for the levels of the request, and for those that are
  -- left.
  have hsame {m : Nat} (hm : n ≤ m + 1) {e : Expr} (he : e ∈ request.trees) :
      G.Same (nested deepest m).lower (within request.depth) e := by
    have hweight := weight_add_le_depth he
    have hlowers : G.Lowers (nested deepest m).lower (within request.depth) e.weight :=
      Ground.lowers_nested deepest (by omega) (by omega)
    exact hlowers.tree (Nat.le_refl _) (htrees e he)
  cases request with
  | expression e desired => exact hsame (Nat.le_succ n) (by simp [trees]) desired
  | implicit e target => exact Ground.agree_implicit (hsame (Nat.le_succ n) (by simp [trees])) target
  | implicitCopy e target =>
    exact Ground.agree_implicitCopy (hsame (Nat.le_succ n) (by simp [trees])) target
  -- A conversion is asked for on its own, so it has to look up the type that it starts from.
  | conversion e target =>
    have htree := htrees e (by simp [trees])
    refine (Ground.agreeBy_typeOf htree.here).bind fun source hsource => ?_
    have hdepth : e.weight + 8 ≤ (Request.conversion e target).depth :=
      weight_add_le_depth (by simp [trees])
    obtain ⟨m, rfl⟩ : ∃ m, n = m + 1 := ⟨n - 1, by omega⟩
    have hmin : min source.pointerDepth target.pointerDepth ≤ G.depth :=
      Nat.le_trans (Nat.min_le_left _ _) (hsource source (.self source))
    have hlevels : 2 ≤ nestingBound e.size := Nat.le_trans (by decide) (Nat.le_add_left 8 _)
    exact Ground.agree_convert deepest hlevels hmin (by omega) hsource (htarget e target rfl)
      (hsame (Nat.le_refl _) (by simp [trees]))
  | template parens pattern operands =>
    refine Ground.agree_renderAs parens pattern fun o ho => ?_
    cases o with
    | expr e => exact hsame (Nat.le_succ n) (List.mem_filterMap.mpr ⟨.expr e, ho, rfl⟩)
    | _ => trivial

/-- With as many levels as the limit says, a request is answered as it is by the program: what would happen
beyond these makes no difference. -/
theorem runIn_runWith_nested (request : Request) (env : Env) (s : FunctionState) (deepest : Calls) :
    (request.runWith (nested deepest (request.nestingLimit env s))).runIn env s =
      request.run.runIn env s := by
  -- All types that are recorded for the trees, and the target, are pointed into by less than the
  -- sum of their sizes.
  let sizes := sumOf (fun e => e.total fun c => env.typeSizes s c.id) request.trees
  have htrees : ∀ e ∈ request.trees, (ground env s (sizes + request.targetSize)).Has e := fun e he =>
    e.all_le_total _ (Nat.le_trans (le_sumOf_of_mem he) (Nat.le_add_right _ _))
  have htarget : ∀ e target, request = .conversion e target →
      target.PointsWithin (ground env s (sizes + request.targetSize)).depth := by
    rintro e target rfl
    exact target.pointsWithin_size.mono (show target.size ≤ sizes + target.size + 1 by omega)
  have hlimit : request.depth + (sizes + request.targetSize + 1) ≤ request.nestingLimit env s + 1 := by
    unfold nestingLimit
    omega
  exact ((agree_runWith deepest hlimit htrees htarget).run (ground_holds env s _)).1

end Request

/-! ### Levels that are needed -/

/-- A type behind a number of pointers. -/
def GoType.behind (t : GoType) : Nat → GoType
  | 0 => t
  | n + 1 => .pointer (t.behind n)

namespace Lower

variable {α β : Type} {m : LowerM α} {f : α → LowerM β}

/-- A run that fails everywhere. -/
def Fails (m : LowerM α) : Prop :=
  ∀ env s, (m.runIn env s).1.isOk = false

/-- What fails at once fails with whatever comes after it. -/
theorem Fails.first (h : Fails m) : Fails (m >>= f) := by
  intro env s
  have hfails := h env s
  rw [LowerM.runIn_bind]
  rcases hrun : m.runIn env s with ⟨err | a, s'⟩
  · rfl
  · rw [hrun] at hfails
    cases hfails

/-- What fails in the end fails with whatever comes before it. -/
theorem Fails.second (h : ∀ a, Fails (f a)) : Fails (m >>= f) := by
  intro env s
  rw [LowerM.runIn_bind]
  rcases m.runIn env s with ⟨err | a, s'⟩
  · rfl
  · exact h a env s'

/-- What fails when no level is left. -/
def refusing : Calls :=
  ⟨fun e _ => fail (.nesting e.location), fun e _ _ => fail (.nesting e.location)⟩

/-- **Levels that are needed.** The conversions that one between pointers to pointers makes take a level each,
down to what is behind all of the pointers. -/
theorem fails_nested_convert {a b : GoType} (hne : a.identical b = false) (hb : b.isAggregate = false)
    {n k : Nat} (hn : n ≤ k) (e : Expr) :
    Fails ((nested refusing n).convert e (a.behind k) (b.behind k)) := by
  induction n generalizing k e with
  | zero => exact fun _ _ => rfl
  | succ n ih =>
    obtain ⟨k, rfl⟩ : ∃ j, k = j + 1 := ⟨k - 1, by omega⟩
    have hidentical (j : Nat) : (a.behind j).identical (b.behind j) = false := by
      induction j with
      | zero => exact hne
      | succ j ih => exact ih
    have haggregate : (b.behind k).isAggregate = false := by
      cases k with
      | zero => exact hb
      | succ k => rfl
    have hnested : (nested refusing (n + 1)).convert e (a.behind (k + 1)) (b.behind (k + 1)) =
        convertOnce (nested refusing n).lower (nested refusing n).convert e
          (.pointer (a.behind k)) (.pointer (b.behind k)) := rfl
    rw [hnested]
    simp only [convertOnce, GoType.identical, hidentical k, haggregate, GoType.isUntypedNil,
      GoType.underlying, GoType.basicKind?, GoType.pointerElem?, Option.none_beq_some, Bool.or_self,
      Bool.false_eq_true, ↓reduceIte]
    -- The pointer and two names come first, and then the first of the two conversions.
    refine .second fun _ => .second fun _ => .second fun _ => .second fun _ => .second fun _ => ?_
    exact .first (ih (by omega) _)

end Lower

/-! ### Limits -/

namespace Request

/-- **Calls are nested within a limit.** Whatever is asked for, of whatever program and in whatever state: at
most `nestingLimit` calls are inside one another, because what would happen beyond makes no difference. The
limit has to depend on types: a conversion between pointers to pointers fails with no more levels than there
are pointers, however small the tree. -/
theorem nesting_bounded :
    (∀ (request : Request) (env : Env) (s : FunctionState) (deepest : Calls),
      (request.runWith (nested deepest (request.nestingLimit env s))).runIn env s =
        request.run.runIn env s) ∧
    ∀ (a b : GoType) (n k : Nat), a.identical b = false → b.isAggregate = false → n ≤ k →
      ∀ e env s, (((nested refusing n).convert e (a.behind k) (b.behind k)).runIn env s).1.isOk = false :=
  ⟨runIn_runWith_nested, fun _ _ _ _ hne hb hn e env s => fails_nested_convert hne hb hn e env s⟩

/-- `p`, a pointer to a pointer to a number -/
def numberPointer : Build Expr :=
  Build.var "p" ((GoType.basic .float64).behind 2)

/-- The facts about `numberPointer`. -/
def numberPointerEnv : Env :=
  { facts := (numberPointer.run {}).2.facts }

/-- The request for a pointer to a pointer to a declared number. -/
def celsiusRequest : Request :=
  .conversion (numberPointer.run {}).1 ((GoType.named "main.Celsius" (.basic .float64)).behind 2)

/-- The tree is a name, and two levels are not enough to convert it, but as many as the limit says are. -/
theorem nesting_bounded_numberPointer :
    (((nested refusing 2).convert (numberPointer.run {}).1 ((GoType.basic .float64).behind 2)
        ((GoType.named "main.Celsius" (.basic .float64)).behind 2)).runIn
      numberPointerEnv {}).1.isOk = false ∧
    ((celsiusRequest.runWith
        (nested refusing (celsiusRequest.nestingLimit numberPointerEnv {}))).runIn
      numberPointerEnv {}).1.isOk = true := by
  obtain ⟨henough, hneeded⟩ := nesting_bounded
  refine ⟨hneeded _ _ 2 2 (by decide) (by decide) (Nat.le_refl 2) _ _ _, ?_⟩
  rw [henough]
  decide +kernel

end Request

end GoLua
