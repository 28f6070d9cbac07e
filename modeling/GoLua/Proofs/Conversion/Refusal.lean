import GoLua.Proofs.Template.Repeated
import GoLua.Proofs.Template.SingleEvaluation

/-!
# Failures for want of a conversion

A computation may fail in many ways, and only one of them says that there is no conversion between two
types. `Accepts` says of a run that it does not fail in this way; it may fail in any other.

No lemma here is about conversions. They say that what conversions are made of accepts what it is given
if lowering the operand does: fetching facts, templates with one operand, and lowering once more with
another desired type. For templates the state has to be followed, because lowering the operand is only
known to be accepted from the state in which the template starts. That is enough: what is lowered twice is
a name or a constant, which leaves the state as it was, and anything else is lowered once, before anything
has changed.
-/

namespace GoLua

open Lua Template

/-- Whether a failure is for want of a conversion. -/
def CompileError.isRefusal : CompileError → Bool
  | .gap (.conversion _ _ _) => true
  | _ => false

namespace Lower

variable {α β : Type} {env : Env} {s t : FunctionState}

/-- A run does not fail for want of a conversion. -/
def Accepts (m : LowerM α) (env : Env) (s : FunctionState) : Prop :=
  ∀ err t, m.runIn env s = (.error err, t) → err.isRefusal = false

namespace Accepts

variable {m : LowerM α} {f : α → LowerM β} {a : α}

/-- A run that succeeds refuses nothing. -/
theorem of_ok (h : m.runIn env s = (.ok a, t)) : Accepts m env s := by
  intro err t' herr
  rw [h] at herr
  cases herr

theorem pure (a : α) : Accepts (pure a) env s :=
  of_ok rfl

/-- A run that fails for another cause than a refusal accepts. -/
theorem fail {cause : LowerError} (h : (CompileError.gap cause).isRefusal = false) :
    Accepts (fail cause : LowerM α) env s := by
  rintro err t ⟨⟩
  exact h

/-- In sequence, acceptance is asked of the second part only where the first succeeds. -/
theorem bind (h : Accepts m env s)
    (hf : ∀ a t, m.runIn env s = (.ok a, t) → Accepts (f a) env t) : Accepts (m >>= f) env s := by
  intro err t herr
  rw [LowerM.runIn_bind] at herr
  rcases hm : m.runIn env s with ⟨err' | a, s₁⟩ <;> rw [hm] at herr
  · obtain ⟨rfl, rfl⟩ : err' = err ∧ s₁ = t := by simpa using herr
    exact h err' s₁ hm
  · exact hf a s₁ hm err t herr

/-- What has been run already is not run again. -/
theorem bind_ok (h : m.runIn env s = (.ok a, t)) (hf : Accepts (f a) env t) :
    Accepts (m >>= f) env s := by
  intro err t' herr
  rw [LowerM.runIn_bind_ok h] at herr
  exact hf err t' herr

/-- What leaves the state alone may stand before anything. -/
theorem bind_still (h : Accepts m env s) (hm : Still m) (hf : ∀ a, Accepts (f a) env s) :
    Accepts (m >>= f) env s := by
  refine h.bind fun a t hrun => ?_
  rw [hm.runIn_eq_ok hrun]
  exact hf a

theorem map (h : Accepts m env s) (g : α → β) : Accepts (g <$> m) env s :=
  h.bind fun _ _ _ => .pure _

/-- Acceptance is a property of the run alone. -/
theorem congr {m' : LowerM α} {s' : FunctionState} (h : m.runIn env s = m'.runIn env s')
    (hm : Accepts m env s) : Accepts m' env s' :=
  fun err t herr => hm err t (h.trans herr)

end Accepts

/-! ### Facts -/

/-- A type that is not recorded is an internal error, but not a refused conversion. -/
theorem accepts_typeOf (e : Expr) : Accepts (typeOf e) env s := by
  intro err t herr
  rw [runIn_typeOf] at herr
  cases htype : env.type? s e.id <;> rw [htype] at herr <;> cases herr
  rfl

/-- Nor does a zero value that cannot be spelled refuse a conversion. -/
theorem accepts_zeroFor (e : Expr) (type : GoType) : Accepts (zeroFor e type) env s := by
  unfold zeroFor GoType.zeroAt
  cases type.zero
  · exact .fail rfl
  · exact .pure _

/-- The spelling of a constant may fail for its value, but refuses no conversion. -/
theorem accepts_constant (c : Constant) (type : GoType) (desired : Option GoType) (l : Location) :
    Accepts (ofExcept (c.lower type desired l)) env s := by
  unfold Constant.lower
  repeat' split
  · exact .fail rfl
  · exact .fail rfl
  · exact .fail rfl
  · exact .pure _

/-- A name is looked up and spelled: what is missing or unsupported is not a conversion. -/
theorem accepts_identifier (e : Expr) (name : String) : Accepts (identifier e name) env s := by
  unfold identifier
  split
  · exact .fail rfl
  refine Accepts.bind ?_ fun obj t _ => .bind_ok (runIn_config ..) ?_
  · unfold objectOf orFail
    refine .bind_ok (runIn_view ..) ?_
    split
    · exact .pure _
    · exact .fail rfl
  repeat' split
  · exact .pure _
  iterate 3 · exact .bind_ok (runIn_config ..) (.pure _)
  -- Only `nil` asks for a type, and what it stands for is chosen by that type.
  · refine (accepts_typeOf e).bind fun type t _ => ?_
    unfold nilValue
    refine .bind_ok (runIn_config ..) ?_
    repeat' split
    · exact .pure _
    · exact .pure _
    · exact .pure _
    iterate 6 · exact (accepts_zeroFor e type).bind fun _ _ _ => .pure _
    · exact .fail rfl
  iterate 3 · exact .fail rfl

end Lower

/-! ### Templates with one operand -/

namespace Template

open Lower

variable {self : Lowering} {env : Env} {s t : FunctionState} {e : Expr} {pattern : String} {tag : Tag}
  {bound : Option String} {ps : List Piece} {q : Piece}

/-- What is written of the operand as an operand. -/
theorem accepts_operandText (h : bound = none → Accepts (self e none) env s) :
    Accepts (operandText self pattern tag (.expr e) bound) env s := by
  cases bound with
  | none => exact (h rfl).map _
  | some name => exact .pure _

/-- A placeholder accepts if it lowers no operand or the operand is accepted. A tag that does not evaluate
does not fit an expression, and that is another failure. -/
theorem accepts_placeholderText
    (h : tag.evaluates = true → bound = none → Accepts (self e none) env s) :
    Accepts (placeholderText self pattern tag (.expr e) bound) env s := by
  cases tag with
  | text | integer | operator => exact .fail rfl
  | expression | folded =>
    cases bound with
    | some name => exact .pure _
    | none =>
      have hself := h rfl rfl
      refine .bind_ok (runIn_constantOf env s e) ?_
      split
      · exact hself.map _
      · split
        · exact .pure _
        · exact hself.map _
  | high | low =>
    -- A half asks for the type first, which leaves the state in which the operand is accepted.
    refine Accepts.bind ((accepts_typeOf e).map _) fun signed t hsigned => ?_
    obtain ⟨type, htype, rfl⟩ := LowerM.runIn_map_eq_ok hsigned
    obtain ⟨-, rfl⟩ := runIn_typeOf_eq_ok htype
    refine .bind_ok (runIn_intConstantOf env t e) ?_
    dsimp only
    split
    · exact .pure _
    · exact (accepts_operandText (h rfl)).map _
  | realPart | imagPart =>
    refine .bind_ok (runIn_constantOf env s e) ?_
    dsimp only
    split
    · exact .pure _
    · exact (accepts_operandText (h rfl)).map _

/-- The text of a piece lowers its operand only when the piece uses it and nothing is bound to it.
-/
theorem accepts_pieceText
    (h : useCount 0 [q] ≠ 0 → bound = none → Accepts (self e none) env s) :
    Accepts (pieceText self pattern [(.expr e, bound)] q) env s := by
  cases q with
  | literal | percent => exact .pure _
  | placeholder digits i tag =>
    cases i with
    | zero => exact accepts_placeholderText fun htag => h (by simp [useCount, htag])
    | succ i => exact .fail rfl

/-- After a piece the state is what it was, unless the operand has been lowered for the piece. -/
theorem state_of_runIn_pieceText {text : String}
    (h : (pieceText self pattern (withNames [.expr e] []) q).runIn env s = (.ok text, t)) :
    t = s ∨ useCount 0 [q] ≠ 0 ∧ ∃ f, (self e none).runIn env s = (.ok f, t) := by
  obtain ⟨places, hwrites⟩ := writes_of_pieceText (by simp [placed]) h
  cases hwrites with
  | @expr _ digits i tag e' value tagged operand unbound needed run =>
    obtain ⟨rfl, rfl⟩ : i = 0 ∧ e = e' := by
      cases i with
      | zero => simpa using operand
      | succ i => simp at operand
    exact .inr ⟨by simp [useCount, tagged], value, run⟩
  | _ => exact .inl rfl

/-- Whether lowering an operand leaves the state as it was. -/
def KeepsState (self : Lowering) (env : Env) (s : FunctionState) (e : Expr) : Prop :=
  ∀ f t, (self e none).runIn env s = (.ok f, t) → t = s

/-- Pieces that lower an operand where they stand: more than once only if that changes nothing. -/
theorem accepts_pieces_unbound (h : useCount 0 ps ≠ 0 → Accepts (self e none) env s)
    (honce : 1 < useCount 0 ps → KeepsState self env s e) :
    Accepts (ps.mapM (pieceText self pattern (withNames [.expr e] []))) env s := by
  -- By induction on the pieces. An operand that is used once is lowered in one piece only; used
  -- again, it has to leave the state alone, since every later piece lowers it anew.
  induction ps generalizing s with
  | nil => exact .pure _
  | cons q ps ih =>
    have hcount := useCount_cons 0 q ps
    rw [List.mapM_cons]
    refine Accepts.bind (accepts_pieceText fun hq _ => h (by omega)) fun text t hrun => ?_
    refine Accepts.map ?_ (text :: ·)
    rcases state_of_runIn_pieceText hrun with rfl | ⟨hq, f, hf⟩
    · exact ih (fun hps => h (by omega)) fun hps => honce (by omega)
    · by_cases hps : useCount 0 ps = 0
      · -- The operand is not lowered again.
        exact ih (fun hne => absurd hps hne) fun hlt => by omega
      · obtain rfl := honce (by omega) f t hf
        exact ih (fun _ => h (by omega)) fun _ => honce (by omega)

/-- Where the operand has a name, nothing is lowered. -/
theorem accepts_pieces_bound (name : String) :
    Accepts (ps.mapM (pieceText self pattern [(.expr e, some name)])) env s := by
  induction ps generalizing s with
  | nil => exact .pure _
  | cons q ps ih =>
    rw [List.mapM_cons]
    exact Accepts.bind (accepts_pieceText fun _ h => by cases h) fun text t _ => ih.map (text :: ·)

/-- So does binding the operand to a local. -/
theorem accepts_bindSlot {uses : Nat} {single : Bool} (h : Accepts (self e none) env s) :
    Accepts (bindSlot self ⟨.expr e, uses, single⟩) env s := by
  rw [bindSlot]
  split
  · exact .pure _
  · exact h.bind fun f t _ => .bind_ok (runIn_newLocal env t "_t") (.pure _)

/-- **Templates with one operand** accept what it is lowered to. -/
theorem accepts_renderAs (h : Accepts (self e none) env s)
    (hagain : Operand.isRepeatable (env.isConstant s) (.expr e) = true → KeepsState self env s e)
    (parens : Bool) : Accepts (renderAs parens self pattern [.expr e]) env s := by
  unfold renderAs
  split
  · exact .fail rfl
  next ps hparse =>
  refine .bind_ok (runIn_slots env s _ ps) ?_
  cases hmust : (slotOf (env.isConstant s) ps (.expr e, 0)).mustBind with
  | false =>
    have hnone : bindingRange ([Operand.expr e].zipIdx.map (slotOf (env.isConstant s) ps)) = [] := by
      simp [bindingRange, hmust]
    rw [hnone]
    refine .bind_ok (a := []) (t := s) rfl ?_
    refine Accepts.bind (accepts_pieces_unbound (fun _ => h) fun hmany => hagain ?_) fun _ _ _ => .pure _
    -- What is lowered twice has not been bound, so it may be repeated.
    simpa [Slot.mustBind, slotOf, hmany] using hmust
  | true =>
    have hone : bindingRange ([Operand.expr e].zipIdx.map (slotOf (env.isConstant s) ps)) =
        [slotOf (env.isConstant s) ps (.expr e, 0)] := by
      simp [bindingRange, hmust]
    rw [hone]
    refine Accepts.bind ?_ fun bound t hbound => ?_
    · rw [List.mapM_cons]
      exact Accepts.bind (accepts_bindSlot h) fun _ _ _ => .pure _
    · -- The operand has a name now, so that what follows does not lower it.
      obtain ⟨o, s₁, os, hslot, hnil, rfl⟩ := LowerM.runIn_mapM_cons_eq_ok hbound
      obtain ⟨rfl, rfl⟩ := LowerM.runIn_pure_eq_ok hnil
      rcases binds_of_bindSlot rfl hslot with ⟨hskip, -⟩ | ⟨-, binding, rfl, -⟩
      · rw [binds_of_mustBind hmust] at hskip
        cases hskip
      · exact Accepts.bind (accepts_pieces_bound binding.name) fun _ _ _ => .pure _

end Template

/-! ### Lowering -/

namespace Lower

variable {env : Env} {s : FunctionState} {e : Expr} {self : Lowering} {desired : Option GoType} {n : Nat}

/-- An expression accepts when its form does: a known value is spelled before and never refused. -/
theorem accepts_expression (h : ∀ t, Accepts (byForm self e desired) env t) :
    Accepts (expression self e desired) env s := by
  refine (accepts_typeOf e).bind fun type t _ => .bind_ok (runIn_constantOf env t e) ?_
  split
  · exact accepts_constant _ _ _ _
  · exact .bind_ok (runIn_recordLowered env t e) (h _)

/-- The desired type is of consequence for constants only, and those are accepted. -/
theorem accepts_within_desired (h : Accepts (within n e none) env s) (desired : Option GoType) :
    Accepts (within n e desired) env s := by
  induction n generalizing e s with
  | zero => exact .fail rfl
  | succ n ih =>
    cases htype : env.type? s e.id with
    | none =>
      have hsame := (runIn_expression_untyped htype (within n) none).trans
        (runIn_expression_untyped htype (within n) desired).symm
      exact .congr hsame h
    | some type =>
      cases hconstant : env.constant? s e.id with
      | some c =>
        exact .congr (runIn_expression_constant htype hconstant (within n) desired).symm
          (accepts_constant _ _ _ _)
      | none =>
        -- Brackets pass the desired type on, and no other form looks at it.
        have hform := Accepts.congr (runIn_expression_form htype hconstant (within n) none) h
        refine .congr (runIn_expression_form htype hconstant (within n) desired).symm ?_
        cases e with
        | paren node inner => exact ih hform
        | _ => exact hform

/-- What templates repeat, a name or a constant, leaves the state as it was. -/
theorem keepsState_within (h : Operand.isRepeatable (env.isConstant s) (.expr e) = true) (n : Nat) :
    KeepsState (within n) env s e := by
  intro f t hrun
  cases hname : e.unparen.isIdent with
  | true => exact (still_within_of_isIdent hname n none).runIn_eq_ok hrun
  | false =>
    -- Whatever its form is, a constant is only looked up, and so it is not even recorded.
    obtain ⟨c, hconstant⟩ : ∃ c, env.constant? s e.id = some c := by
      simpa [Operand.isRepeatable, hname, Env.isConstant, Option.isSome_iff_exists] using h
    cases n with
    | zero => cases hrun
    | succ n =>
      cases htype : env.type? s e.id with
      | none =>
        rw [within, runIn_expression_untyped htype] at hrun
        cases hrun
      | some type =>
        rw [within, runIn_expression_constant htype hconstant] at hrun
        exact (Still.ofExcept _).runIn_eq_ok hrun

/-- **Templates** accept an operand that lowering accepts. -/
theorem accepts_renderAs_within (h : Accepts (within n e none) env s) (parens : Bool)
    (pattern : String) : Accepts (renderAs parens (within n) pattern [.expr e]) env s :=
  accepts_renderAs h (fun hrepeatable => keepsState_within hrepeatable n) parens

/-- A host object that is wrapped is lowered as it is, and behind it only text is added. -/
theorem accepts_wrappedHostObject (h : Accepts (within n e none) env s) :
    Accepts (wrappedHostObject (within n) e) env s :=
  accepts_renderAs_within h false (Support.hostObjectPtr ++ "(%e)")

/-- A name is accepted in every state. -/
theorem accepts_ident (node : Node) (name : String) (desired : Option GoType) :
    Accepts (within n (.ident node name) desired) env s := by
  cases n with
  | zero => exact .fail rfl
  | succ n => exact accepts_expression fun t => accepts_identifier _ name

/-- So is what a name points to. -/
theorem accepts_star_ident (node inner : Node) (name : String) (desired : Option GoType) :
    Accepts (within n (.star node (.ident inner name)) desired) env s := by
  cases n with
  | zero => exact .fail rfl
  | succ n =>
    refine accepts_expression fun t => ?_
    refine (accepts_typeOf _).bind fun pointer t _ => .bind_ok (runIn_config ..) ?_
    split
    · exact accepts_wrappedHostObject (accepts_ident _ _ _)
    refine (accepts_typeOf _).bind fun type t _ => ?_
    split
    · exact accepts_ident _ _ _
    · exact accepts_renderAs_within (accepts_ident _ _ _) false _

end Lower

end GoLua
