import GoLua.Proofs.Brackets.Convert

/-!
# Selectors, receivers and addresses of twins

A receiver is made around the base of a selector: a selector of an embedded field, its address, or what it
points to. What is made around twins are twins again (`twin_embedded`, `twin_addressOf`, `twin_star`), of
a depth that is greater by the new nodes.

The rule of addresses asks what its operand is inside of brackets, so the operand has to be `Paired`.
-/

namespace GoLua

open Lower Template

variable {scene : Scene} {k l n m : Nat} {c c' b b' e e' : Expr}

/-! ### Fields -/

theorem mirrors_pathFrom (type : GoType) (index : List Nat) (span : Span) :
    Mirrors scene (pathFrom type index span) (pathFrom type index span) :=
  (mirrors_config _).bind fun _ => mirrors_ofExcept rfl

/-- A field is read along the same path. -/
theorem mirrors_field (h : Twin scene k l b b') (selection : Selection) (span : Span) :
    Mirrors scene (field (within k) b selection span) (field (within l) b' selection span) := by
  refine (mirrors_pathFrom _ _ _).bind fun path => ?_
  split
  · exact (mirrors_render _ h.alone).bind fun _ => mirrors_config _
  · exact mirrors_render _ h.alone

/-- A selector that is known to be of a field. -/
theorem twin_embedded {ν : Node} {selection : Selection} (h : Twin scene n m b b')
    (hselection : ∀ s, Later scene.base s → scene.env.selection? s ν.id = some selection)
    (hkind : selection.kind = .fieldVal) (sel : Expr) :
    Twin scene (n + 1) (m + 1) (.selector ν b sel) (.selector ν b' sel) := by
  refine .of_form rfl .refl rfl rfl rfl fun k l hk hl desired => ?_
  have hlook : MirrorsBy scene (fun x x' => x = some selection ∧ x' = some selection)
      (selectionOf (.selector ν b sel)) (selectionOf (.selector ν b' sel)) := by
    refine mirrors_of_run fun inside s hs lowered reporter hreports => ?_
    exact ⟨⟨hselection s hs, hselection s hs⟩, .refl s, lowered, reporter, rfl, hreports⟩
  refine hlook.bind ?_
  rintro _ _ ⟨rfl, rfl⟩
  dsimp only
  rw [hkind]
  exact mirrors_field (h.mono hk hl) selection ν.span

/-! ### Addresses -/

theorem mirrors_variableAccessor (obj : Object) :
    Mirrors scene (variableAccessor obj) (variableAccessor obj) := by
  refine mirrors_ite (fun _ => (mirrors_config _).bind fun _ => mirrors_pure rfl) fun _ => ?_
  exact (mirrors_config _).bind fun name => (mirrors_accessorBox _).bind fun _ => mirrors_pure rfl

/-- Other forms of a place are refused. -/
theorem placeAddress_of_not_isLookedInto {self : Lowering} {target : Expr}
    (h : target.isLookedInto = false) (e : Expr) (type : GoType) :
    placeAddress self e target type = unsupported e (.addressOf target.describe) := by
  cases target with
  | compositeLit | ident | selector | index | star | typeExpr => cases h
  | _ => rfl

/-- What an address is taken of is looked at below its brackets. -/
theorem mirrors_placeAddress (h : Core scene k l c c') (e e' : Expr) (type : GoType) :
    Mirrors scene (placeAddress (within k) e c type) (placeAddress (within l) e' c' type) := by
  cases h with
  | literal whole => exact mirrors_render _ whole.alone
  | ident => exact (mirrors_objectOf rfl).bind mirrors_variableAccessor
  | selector _ base _ =>
    refine (mirrors_selectionOf rfl).bind fun selection => ?_
    cases selection with
    | none => exact (mirrors_objectOf rfl).bind mirrors_variableAccessor
    | some selection =>
      refine mirrors_ite (fun _ => ?_) fun _ => mirrors_unsupported _ _ _ _
      exact (mirrors_pathFrom _ _ _).bind fun path => mirrors_render _ base.alone
  | index base index => exact mirrors_render _ (base.beside index)
  | star inner => exact inner.here none
  | typeExpr => exact mirrors_unsupported _ _ _ _
  | other h h' =>
    rw [placeAddress_of_not_isLookedInto h, placeAddress_of_not_isLookedInto h']
    exact mirrors_unsupported _ _ _ _

/-- The address of a place depends on its type and on its form. -/
theorem mirrors_addressOf (h : Paired scene k l c c') (hid : e'.id = e.id) :
    Mirrors scene (addressOf (within k) e c) (addressOf (within l) e' c') := by
  refine (mirrors_typeOf (.of_eq hid)).bind fun type => (mirrors_config _).bind fun hostObject => ?_
  refine mirrors_ite (fun _ => mirrors_render _ h.alone) fun _ => ?_
  refine (mirrors_typeOf h.alike).bind fun operandType => ?_
  exact mirrors_ite (fun _ => h.here none) fun _ => mirrors_placeAddress h.core e e' type

/-- The addresses of twins. -/
theorem twin_addressOf {ν : Node} (h : Paired scene n m c c') :
    Twin scene (n + 1) (m + 1) (.unary ν .addrOf c) (.unary ν .addrOf c') := by
  refine .of_form rfl .refl rfl rfl rfl fun k l hk hl desired => ?_
  exact mirrors_addressOf (h.mono hk hl) rfl

/-! ### Receivers -/

/-- A node that is noted down to be a resolved selector. It is known to be one from then on. -/
theorem mirrors_synthesizeSelector {γ : Type} {Q : γ → γ → Prop} (type : GoType) (span : Span)
    (selection : Selection) {f f' : Node → LowerM γ} (h : ∀ s, Later scene.base s → ∀ ν : Node,
      (∀ t, Later s t → scene.env.selection? t ν.id = some selection) →
        MirrorsBy (scene.after s) Q (f ν) (f' ν)) :
    MirrorsBy scene Q
      (synthesizeNode type span >>= fun ν => recordSelection ν.id selection >>= fun _ => f ν)
      (synthesizeNode type span >>= fun ν => recordSelection ν.id selection >>= fun _ => f' ν) := by
  let step (s : FunctionState) : FunctionState :=
    s.newSyntheticId.2.modifyOverlay fun o =>
      { o with types := o.types.insert s.nextSynthetic type,
               selections := o.selections.insert s.nextSynthetic selection }
  have hrun (env : Env) (s : FunctionState) :
      (synthesizeNode type span >>= fun ν =>
        recordSelection ν.id selection >>= fun _ => pure ν).runIn env s =
      (.ok ⟨s.nextSynthetic, span⟩, step s) := rfl
  have hlater (s : FunctionState) : Later s (step s) := .of_new rfl fun id hne =>
    (Overlay.AgreesAt.insertType hne type).trans (.insertSelection hne selection)
  have hknown (s t : FunctionState) (ht : Later (step s) t) :
      scene.env.selection? t s.nextSynthetic = some selection := by
    -- The number has been handed out, so the note stays as it is.
    rw [ht.selection? scene.env (Nat.lt_succ_self s.nextSynthetic)]
    show ((s.overlay.selections.insert s.nextSynthetic selection).get? s.nextSynthetic).or _ = _
    rw [NodeTable.get?_insert_self]
    rfl
  have hnoted (s : FunctionState) (hs : Later scene.base s) :
      MirrorsBy (scene.after (step s)) Q (f ⟨s.nextSynthetic, span⟩) (f' ⟨s.nextSynthetic, span⟩) :=
    h (step s) (hs.trans (hlater s)) _ (hknown s)
  simpa only [bind_assoc, pure_bind] using
    mirrors_new hrun hrun (fun _ _ _ => rfl) (fun _ _ _ => rfl) (fun _ => rfl) hlater hnoted

/-- The expression that embedded fields lead to. What follows may know that a new selector is one of a
field. -/
theorem mirrors_embeddedBase (h : Paired scene n m b b') (selection : Selection) (span : Span)
    {f f' : Expr → LowerM Fragment} (hf : ∀ s, Later scene.base s → ∀ r r',
      Paired (scene.after s) (n + 1) (m + 1) r r' → Mirrors (scene.after s) (f r) (f' r')) :
    Mirrors scene (embeddedBase b selection span >>= f) (embeddedBase b' selection span >>= f') := by
  unfold embeddedBase
  split
  · rw [pure_bind, pure_bind]
    exact hf scene.base (.refl _) b b' (h.mono (Nat.le_succ n) (Nat.le_succ m))
  · simp only [bind_assoc, pure_bind]
    refine (mirrors_pathFrom _ _ _).bind fun path => ?_
    refine (mirrors_newNode path.type span).bind fun sel => ?_
    refine mirrors_synthesizeSelector path.type span _ fun s hs ν hselection => ?_
    have hbase := h.later hs
    have hwhole (sel : Expr) := twin_embedded hbase.toTwin hselection rfl sel
    have hdeeper := hbase.mono (Nat.le_succ n) (Nat.le_succ m)
    exact hf s hs _ _ ⟨hwhole _, .selector (hwhole _) hdeeper.toTwin hdeeper.core⟩

theorem mirrors_receiverValue (h : Twin scene n m c c') (hk : n + 1 ≤ k) (hl : m + 1 ≤ l)
    (type : GoType) (span : Span) :
    Mirrors scene (receiverValue (within k) c type span) (receiverValue (within l) c' type span) := by
  unfold receiverValue
  cases type.pointerElem? with
  | none => exact mirrors_implicitCopy (h.mono (Nat.le_of_succ_le hk) (Nat.le_of_succ_le hl)) type
  | some elem =>
    refine (mirrors_newNode elem span).bind fun ν => ?_
    exact mirrors_implicitCopy ((twin_star h rfl .refl).mono hk hl) elem

theorem mirrors_receiver (h : Paired scene n m b b') (hk : n + 2 ≤ k) (hl : m + 2 ≤ l)
    (selection : Selection) (span : Span) :
    Mirrors scene (receiver (within k) b selection span) (receiver (within l) b' selection span) := by
  refine mirrors_embeddedBase h selection span fun s hs r r' hr => ?_
  have hhere := (hr.toTwin.mono (Nat.le_of_succ_le hk) (Nat.le_of_succ_le hl)).here none
  refine (mirrors_typeOf hr.alike).bind fun type => ?_
  refine mirrors_ite (fun _ => hhere) fun _ => mirrors_ite (fun _ => ?_) fun _ => ?_
  · -- The method wants a pointer: the receiver is one, or its address is taken.
    refine mirrors_ite (fun _ => hhere) fun _ => ?_
    refine (mirrors_newNode (.pointer type) span).bind fun ν => ?_
    exact ((twin_addressOf hr).mono hk hl).here none
  · -- It wants a value, which is copied and may be put into a box.
    refine (mirrors_receiverValue hr.toTwin hk hl type span).bind fun value => ?_
    refine (mirrors_config _).bind fun boxed => mirrors_ite (fun _ => ?_) fun _ => mirrors_pure rfl
    exact mirrors_render _ (.cons (.lowered value) .nil)

/-! ### Selectors -/

theorem mirrors_selector (h : Paired scene n m b b') (hk : n + 2 ≤ k) (hl : m + 2 ≤ l) {ν : Node}
    (sel : Expr) :
    Mirrors scene (selector (within k) (.selector ν b sel) b sel)
      (selector (within l) (.selector ν b' sel) b' sel) := by
  refine (mirrors_selectionOf rfl).bind fun selection => ?_
  cases selection with
  | none => exact mirrors_identifier rfl _
  | some selection =>
    dsimp only
    cases selection.kind with
    | fieldVal =>
      exact mirrors_field (h.toTwin.mono (by omega) (by omega)) selection ν.span
    | methodVal =>
      refine (mirrors_receiver h hk hl selection ν.span).bind fun recv => ?_
      exact mirrors_render _ (.cons (.lowered recv) .nil)
    | methodExpr => exact mirrors_pure rfl

end GoLua
