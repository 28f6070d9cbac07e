import GoLua.Proofs.Run.Expression
import GoLua.Proofs.Run.Still
import GoLua.Proofs.Template.Inline
import Mathlib.Data.List.TakeWhile

/-!
# Templates that need an operand twice

A few rules refer to one operand more than once: to take both parts of a complex number, or to ask a
value for its constructor and to pass it on. What such a template comes to depends on the operand alone
(`runIn_renderAs_repeated`): a name is written wherever it is needed, and anything else is bound to a
local first, of which the name is written then. All other operands are constants or words of the
pattern, and those may be repeated.

A name may be repeated because lowering it leaves the state as it was (`still_within_of_isIdent`).
-/

namespace GoLua

open Lower

/-! ### Names -/

namespace Lower

/-- What is missing is reported without a change of the state. -/
theorem Still.orFail {α : Type} (value : Option α) (err : LowerError) : Still (orFail value err) := by
  cases value
  · exact .fail _
  · exact .pure _

theorem still_typeOf (e : Expr) : Still (typeOf e) :=
  Still.bind (.view _) fun _ => .orFail _ _

/-- So is the value of `nil`. -/
theorem still_nilValue (e : Expr) (type : GoType) : Still (nilValue e type) := by
  unfold nilValue
  refine Still.bind (.view _) fun hostObject => ?_
  split
  · exact .pure _
  split
  · exact .pure _
  · exact .pure _
  iterate 6 · exact Still.bind (.ofExcept _) fun _ => .pure _
  · exact .fail _

/-- Finding out what an identifier stands for leaves everything as it was. -/
theorem still_identifier (e : Expr) (name : String) : Still (identifier e name) := by
  unfold identifier
  split
  · exact .fail _
  refine Still.bind (Still.bind (.view _) fun _ => .orFail _ _) fun obj => ?_
  refine Still.bind (.view _) fun entity => ?_
  split
  · exact .pure _
  split
  iterate 3 · exact Still.bind (.view _) fun _ => .pure _
  · exact Still.bind (still_typeOf e) fun type => still_nilValue e type
  iterate 3 · exact .fail _

/-- **Names** may be lowered again, in brackets as well. -/
theorem still_within_of_isIdent {e : Expr} (h : e.unparen.isIdent) (n : Nat)
    (desired : Option GoType) : Still (within n e desired) := by
  induction n generalizing e with
  | zero => exact .fail _
  | succ n ih =>
    refine Still.bind (still_typeOf e) fun type => Still.bind (.view _) fun constant => ?_
    split
    · exact .ofExcept _
    · have hrecord : Still (recordLowered e) := by
        unfold recordLowered
        rw [h]
        exact .pure _
      refine hrecord.bind fun _ => ?_
      cases e with
      | ident node name => exact still_identifier _ name
      | paren node inner => exact ih (e := inner) (by simpa using h)
      | _ => cases h

section

variable {env : Env} {s s' : FunctionState} {e : Expr} {m : Nat} {desired : Option GoType}
  {r : Except CompileError Fragment} (id : NodeId)
  (h : (within m e desired).runIn env s = (r, s'))

include h

/-- What is known of a node stays known. -/
theorem constant?_within : env.constant? s' id = env.constant? s id := by
  rw [Env.constant?, Env.constant?, (steady_within (ready_freePrices env s) h).constants]

/-- So it does where the operand has been bound to a local. -/
theorem constant?_newLocal : env.constant? (s'.newLocal "_t").2 id = env.constant? s id := by
  change env.constant? s' id = _
  exact constant?_within id h

end

end Lower

namespace Template

/-! ### Slots -/

section

variable {self : Lowering} {env : Env} {s s₁ : FunctionState} {e : Expr} {f : Fragment}
  {before after : List Slot}

/-- A slot that may be repeated need not be bound. -/
theorem mustBind_of_repeatable {slot : Slot} (h : slot.repeatable) : slot.mustBind = false := by
  rw [Slot.mustBind, h, Bool.not_true, Bool.and_false]

/-- What must be bound is bound. -/
theorem binds_of_mustBind {slot : Slot} (h : slot.mustBind) : slot.binds = true := by
  obtain ⟨huses, hsingle⟩ := Bool.and_eq_true_iff.mp h
  have hused : 1 < slot.uses := of_decide_eq_true huses
  simp only [Slot.binds, hsingle, Bool.and_true, bne_iff_ne]
  omega

/-- Behind the last slot that has to be bound, nothing is. -/
theorem dropWhile_reverse_of_repeatable (h : ∀ t ∈ after, t.repeatable) :
    after.reverse.dropWhile (fun t => !t.mustBind) = [] := by
  refine List.dropWhile_eq_nil_iff.mpr fun t ht => ?_
  rw [mustBind_of_repeatable (h t (List.mem_reverse.mp ht))]
  rfl

/-- The binding range ends with the only slot that must be bound. -/
theorem bindingRange_eq_append_singleton {slot : Slot} (hslot : slot.mustBind)
    (hafter : ∀ t ∈ after, t.repeatable) :
    bindingRange (before ++ slot :: after) = before ++ [slot] := by
  rw [bindingRange, List.reverse_append, List.reverse_cons, List.append_assoc,
    List.dropWhile_append, dropWhile_reverse_of_repeatable hafter]
  simp [hslot]

/-- Slots that may be repeated are not bound. -/
theorem runIn_bindSlots_repeatable (h : ∀ t ∈ before, t.repeatable) :
    (before.mapM (bindSlot self)).runIn env s = (.ok (before.map fun _ => none), s) := by
  induction before with
  | nil => rfl
  | cons t before ih =>
    have hskip : (bindSlot self t).runIn env s = (.ok none, s) := by
      rw [bindSlot, h t List.mem_cons_self, Bool.or_true, if_pos rfl]
      rfl
    rw [List.mapM_cons, LowerM.runIn_bind_ok hskip,
      LowerM.runIn_bind_ok (ih fun t ht => h t (List.mem_cons_of_mem _ ht))]
    rfl

/-- The slot behind them is bound to the next local. -/
theorem runIn_bindSlots_one (h : ∀ t ∈ before, t.repeatable) {uses : Nat} (huses : uses ≠ 0)
    (hrun : (self e none).runIn env s = (.ok f, s₁)) :
    ((before ++ [(⟨.expr e, uses, false⟩ : Slot)]).mapM (bindSlot self)).runIn env s =
      (.ok ((before.map fun _ => none) ++ [some ⟨(s₁.newLocal "_t").1, f.text⟩]),
        (s₁.newLocal "_t").2) := by
  have hbind : (bindSlot self ⟨.expr e, uses, false⟩).runIn env s =
      (.ok (some ⟨(s₁.newLocal "_t").1, f.text⟩), (s₁.newLocal "_t").2) := by
    rw [bindSlot, if_neg (by simpa using huses)]
    exact LowerM.runIn_bind_ok hrun _
  rw [List.mapM_append, LowerM.runIn_bind_ok (runIn_bindSlots_repeatable h), List.mapM_cons,
    List.mapM_nil]
  exact LowerM.runIn_bind_ok (LowerM.runIn_bind_ok hbind _) _

end

/-! ### Pieces -/

/-- Pieces that write a text in a state, which stays as it is. -/
def FixedAt (self : Lowering) (env : Env) (s : FunctionState) (pattern : String)
    (named : List (Operand × Option String)) (ps : List Piece) (text : String) : Prop :=
  ∃ texts, String.join texts = text ∧
    (ps.mapM (pieceText self pattern named)).runIn env s = (.ok texts, s)

section

variable {self : Lowering} {env : Env} {s : FunctionState} {pattern text rest : String}
  {named : List (Operand × Option String)} {ps : List Piece} {e : Expr} {f : Fragment} {c : Constant}
  {tag : Tag} {digits : List Char} {i : Nat} {localName : String}

theorem FixedAt.nil : FixedAt self env s pattern named [] "" :=
  ⟨[], rfl, rfl⟩

/-- A list of pieces is fixed when its first one is and the rest. -/
theorem FixedAt.cons {q : Piece}
    (hq : (pieceText self pattern named q).runIn env s = (.ok text, s))
    (hps : FixedAt self env s pattern named ps rest) :
    FixedAt self env s pattern named (q :: ps) (text ++ rest) := by
  obtain ⟨texts, rfl, hps⟩ := hps
  exact ⟨text :: texts, String.join_cons, runIn_pieces_cons hq hps⟩

theorem FixedAt.literal (cs : List Char) (hps : FixedAt self env s pattern named ps rest) :
    FixedAt self env s pattern named (.literal cs :: ps) (String.ofList cs ++ rest) :=
  hps.cons rfl

/-- The tags that take of an operand only what has been lowered. -/
def baseTags : List Tag :=
  [.expression, .realPart, .imagPart]

/-- An operand that is bound is written by its name. -/
theorem FixedAt.name (hnamed : named[i]? = some (.expr e, some localName))
    (hunknown : env.constant? s e.id = none) (htag : tag ∈ baseTags)
    (hps : FixedAt self env s pattern named ps rest) :
    FixedAt self env s pattern named (.placeholder digits i tag :: ps)
      (tag.around false localName ++ rest) := by
  refine hps.cons ?_
  rw [pieceText, hnamed]
  have hpart : (partText self pattern tag (.expr e) (some localName)).runIn env s =
      (.ok (localName ++ if tag == .realPart then ".real" else ".imag"), s) := by
    rw [partText, LowerM.runIn_bind_ok (runIn_constantOf env s e), hunknown]
    rfl
  cases tag
  case expression => rfl
  case realPart | imagPart => exact hpart
  all_goals exact absurd htag (by decide)

/-- An operand that is repeated is lowered wherever it is written. -/
theorem FixedAt.again (hnamed : named[i]? = some (.expr e, none))
    (hunknown : env.constant? s e.id = none) (htag : tag ∈ baseTags)
    (hrun : (self e none).runIn env s = (.ok f, s))
    (hps : FixedAt self env s pattern named ps rest) :
    FixedAt self env s pattern named (.placeholder digits i tag :: ps)
      (tag.around false f.operand ++ rest) := by
  -- A known value would be written otherwise, so only an unknown operand is lowered again.
  refine hps.cons ?_
  rw [pieceText, hnamed]
  have hpart : (partText self pattern tag (.expr e) none).runIn env s =
      (.ok (f.operand ++ if tag == .realPart then ".real" else ".imag"), s) := by
    rw [partText, LowerM.runIn_bind_ok (runIn_constantOf env s e), hunknown]
    exact LowerM.runIn_bind_ok (LowerM.runIn_bind_ok hrun _) _
  cases tag
  case expression =>
    dsimp only [placeholderText]
    rw [expressionText, LowerM.runIn_bind_ok (runIn_constantOf env s e), hunknown]
    exact LowerM.runIn_bind_ok hrun _
  case realPart | imagPart => exact hpart
  all_goals exact absurd htag (by decide)

/-- A part of a constant is a literal. -/
theorem FixedAt.constantPart (hnamed : named[i]? = some (.expr e, none))
    (hconstant : env.constant? s e.id = some c) (htag : tag = .realPart ∨ tag = .imagPart)
    {x : Double} (hx : (if tag == .realPart then c.re? else c.im?) = some x)
    (hps : FixedAt self env s pattern named ps rest) :
    FixedAt self env s pattern named (.placeholder digits i tag :: ps)
      (Lua.floatLiteral x ++ rest) := by
  refine hps.cons ?_
  rw [pieceText, hnamed]
  have hpart : (partText self pattern tag (.expr e) none).runIn env s =
      (.ok (Lua.floatLiteral x), s) := by
    rw [partText, LowerM.runIn_bind_ok (runIn_constantOf env s e), hconstant]
    simp only [Option.bind_some, hx]
    rfl
  rcases htag with rfl | rfl <;> exact hpart

end

/-! ### Templates -/

section

variable {self : Lowering} {env : Env} {s s₁ : FunctionState} {e : Expr} {f : Fragment}
  {pattern : String} {ps : List Piece} {pre post : List Operand} {body : String → String}

/-- Behind fixed text, the pieces that were written are a first one and the others. -/
theorem exists_texts_of_front {before after : List Piece} {q : Piece} {b : String}
    {named : List (Operand × Option String)} {texts : List String} {s' : FunctionState}
    (hbefore : Fixed self env pattern named before b)
    (h : ((before ++ q :: after).mapM (pieceText self pattern named)).runIn env s =
      (.ok texts, s')) :
    ∃ text rest s₁, (pieceText self pattern named q).runIn env s = (.ok text, s₁) ∧
      (after.mapM (pieceText self pattern named)).runIn env s₁ = (.ok rest, s') ∧
      String.join texts = b ++ text ++ String.join rest := by
  obtain ⟨fronts, rfl, hfronts⟩ := hbefore
  rw [List.mapM_append, LowerM.runIn_bind_ok (hfronts s)] at h
  obtain ⟨behind, s₂, hbehind, h⟩ := LowerM.runIn_bind_eq_ok h
  obtain ⟨rfl, rfl⟩ := LowerM.runIn_pure_eq_ok h
  obtain ⟨text, s₁, rest, htext, hrest, rfl⟩ := LowerM.runIn_mapM_cons_eq_ok hbehind
  exact ⟨text, rest, s₁, htext, hrest, by
    rw [String.join_append, String.join_cons, String.append_assoc]⟩

/-- What is written of an operand that has no name is what it is lowered to. -/
theorem exists_of_runIn_expression {named : List (Operand × Option String)} {s' : FunctionState}
    {digits : List Char} {i : Nat} {text : String} (hnamed : named[i]? = some (.expr e, none))
    (h : (pieceText self pattern named (.placeholder digits i .expression)).runIn env s =
      (.ok text, s')) :
    ∃ f, (self e none).runIn env s = (.ok f, s') ∧ env.written s e f = text := by
  rw [pieceText, hnamed] at h
  dsimp only [placeholderText] at h
  rw [expressionText, LowerM.runIn_bind_ok (runIn_constantOf env s e)] at h
  unfold Env.written
  cases hconstant : env.constant? s e.id with
  | none =>
    rw [hconstant] at h
    exact LowerM.runIn_map_eq_ok h
  | some c =>
    rw [hconstant] at h
    exact LowerM.runIn_map_eq_ok h

/-- **Templates that start with their operand**, perhaps behind fixed text. If such a template succeeds, so
does lowering the operand, and the text that comes first is the operand or the name of a local that
holds it. -/
theorem exists_of_runIn_renderAs_front (before : List Piece) {after : List Piece}
    {digits : List Char} {b : String} {parens : Bool} {g : Fragment} {s' : FunctionState}
    (hparse : parse 1 pattern = .ok (before ++ .placeholder digits 0 .expression :: after))
    (hbefore : ∀ named, Fixed self env pattern named before b)
    (h : (renderAs parens self pattern [.expr e]).runIn env s = (.ok g, s')) :
    ∃ f s₁ s₂ bound texts, (self e none).runIn env s = (.ok f, s₁) ∧
      (after.mapM (pieceText self pattern (withNames [.expr e] bound))).runIn env s₂ =
        (.ok texts, s') ∧
      (g = ⟨b ++ env.written s e f ++ String.join texts, parens⟩ ∨
        ∃ name, g = .atom (withLocals [⟨name, f.text⟩] (b ++ name ++ String.join texts))) := by
  unfold renderAs at h
  rw [show parse [Operand.expr e].length pattern = _ from hparse] at h
  dsimp only at h
  rw [LowerM.runIn_bind_ok (runIn_slots env s _ _)] at h
  obtain ⟨bound, s₁, hbound, h⟩ := LowerM.runIn_bind_eq_ok h
  obtain ⟨texts, s₂, htexts, h⟩ := LowerM.runIn_bind_eq_ok h
  obtain ⟨text, rest, s₃, htext, hrest, hjoin⟩ := exists_texts_of_front (hbefore _) htexts
  rw [hjoin] at h
  cases hmust : (slotOf (env.isConstant s) (before ++ .placeholder digits 0 .expression :: after)
      (.expr e, 0)).mustBind with
  | false =>
    -- Nothing is bound, so the operand is lowered where it stands.
    have hnone : bindingRange ([Operand.expr e].zipIdx.map
        (slotOf (env.isConstant s) (before ++ .placeholder digits 0 .expression :: after))) = [] := by
      simp [bindingRange, hmust]
    rw [hnone] at hbound
    obtain ⟨rfl, rfl⟩ := LowerM.runIn_pure_eq_ok hbound
    obtain ⟨f, hrun, rfl⟩ := exists_of_runIn_expression rfl htext
    obtain ⟨rfl, rfl⟩ := LowerM.runIn_pure_eq_ok h
    exact ⟨f, s₃, s₃, [], rest, hrun, hrest, .inl rfl⟩
  | true =>
    have hone : bindingRange ([Operand.expr e].zipIdx.map
        (slotOf (env.isConstant s) (before ++ .placeholder digits 0 .expression :: after))) =
          [slotOf (env.isConstant s) (before ++ .placeholder digits 0 .expression :: after)
            (.expr e, 0)] := by
      simp [bindingRange, hmust]
    rw [hone] at hbound
    obtain ⟨o, s₄, os, hslot, hnil, rfl⟩ := LowerM.runIn_mapM_cons_eq_ok hbound
    obtain ⟨rfl, rfl⟩ := LowerM.runIn_pure_eq_ok hnil
    rcases binds_of_bindSlot rfl hslot with ⟨hskip, -⟩ | ⟨-, binding, rfl, hbinds⟩
    · rw [binds_of_mustBind hmust] at hskip
      cases hskip
    · cases hbinds with
      | @expr _ _ s₅ f hrun =>
        have hname : text = (s₅.newLocal "_t").1 := (LowerM.runIn_pure_eq_ok htext).1.symm
        subst hname
        obtain ⟨rfl, rfl⟩ := LowerM.runIn_pure_eq_ok h
        exact ⟨f, s₅, s₃, _, rest, hrun, hrest, .inr ⟨_, rfl⟩⟩

/-- **A text that needs an operand more than once.** A name is written wherever it is needed; of anything
else that has been lowered, it is the name of a local. -/
inductive Repeats (e : Expr) (f : Fragment) (s : FunctionState) (parens : Bool)
    (body : String → String) : Fragment → FunctionState → Prop where
  | name (isName : e.unparen.isIdent) : Repeats e f s parens body ⟨body f.operand, parens⟩ s
  | bound (isNoName : e.unparen.isIdent = false) :
      Repeats e f s parens body
        (.atom (withLocals [⟨(s.newLocal "_t").1, f.text⟩] (body (s.newLocal "_t").1)))
        (s.newLocal "_t").2

/-- A name that is repeated is written wherever it is needed. -/
theorem Repeats.of_isIdent {parens : Bool} {g : Fragment} {s' : FunctionState}
    (h : Repeats e f s parens body g s') (hname : e.unparen.isIdent) :
    g = ⟨body f.operand, parens⟩ ∧ s' = s := by
  cases h with
  | name => exact ⟨rfl, rfl⟩
  | bound isNoName =>
    rw [hname] at isNoName
    cases isNoName

/-- The operand that is repeated, if it has no name. -/
def boundAt (pre : List Operand) (binding : LocalBinding) : List (Option LocalBinding) :=
  (pre.map fun _ => none) ++ [some binding]

variable (pre post) in
/-- **Repeated operands.** Among operands that may be repeated, one is referred to more than once. -/
theorem runIn_renderAs_repeated
    (hparse : parse (pre ++ .expr e :: post).length pattern = .ok ps)
    (huses : 1 < useCount pre.length ps) (hunknown : env.constant? s e.id = none)
    (hpre : ∀ o ∈ pre, o.isRepeatable (env.isConstant s))
    (hpost : ∀ o ∈ post, o.isRepeatable (env.isConstant s))
    (hrun : (self e none).runIn env s = (.ok f, s₁))
    (hname : e.unparen.isIdent → s₁ = s ∧
      FixedAt self env s pattern (withNames (pre ++ .expr e :: post) []) ps (body f.operand))
    (hbound : ∀ name, FixedAt self env (s₁.newLocal "_t").2 pattern
      (withNames (pre ++ .expr e :: post) (boundAt pre ⟨name, f.text⟩)) ps (body name))
    (parens : Bool) :
    ∃ g s', (renderAs parens self pattern (pre ++ .expr e :: post)).runIn env s = (.ok g, s') ∧
      Repeats e f s₁ parens body g s' := by
  -- The operand in the middle is the only slot that could ask for a binding; those around it may be
  -- repeated.
  have hslots : (pre ++ .expr e :: post).zipIdx.map (slotOf (env.isConstant s) ps) =
      pre.zipIdx.map (slotOf (env.isConstant s) ps) ++
        ⟨.expr e, useCount pre.length ps, e.unparen.isIdent⟩ ::
          (post.zipIdx (pre.length + 1)).map (slotOf (env.isConstant s) ps) := by
    have hconstant : env.isConstant s e.id = false := by
      rw [Env.isConstant, hunknown]
      rfl
    rw [List.zipIdx_append, List.map_append, List.zipIdx_cons, List.map_cons]
    simp [slotOf, Operand.isRepeatable, hconstant]
  have hrepeatable {os : List Operand} {k : Nat} (h : ∀ o ∈ os, o.isRepeatable (env.isConstant s)) :
      ∀ t ∈ (os.zipIdx k).map (slotOf (env.isConstant s) ps), t.repeatable := by
    intro t ht
    obtain ⟨o, ho, rfl⟩ := List.mem_map.mp ht
    exact h o.1 (List.fst_mem_of_mem_zipIdx ho)
  rw [renderAs, hparse]
  dsimp only
  rw [LowerM.runIn_bind_ok (runIn_slots env s _ ps), hslots]
  -- A name is repeated as it is; any other operand is bound to a name.
  cases hident : e.unparen.isIdent with
  | true =>
    obtain ⟨rfl, texts, htexts, hbody⟩ := hname hident
    have hnone : bindingRange (pre.zipIdx.map (slotOf (env.isConstant s₁) ps) ++
        ⟨.expr e, useCount pre.length ps, true⟩ ::
          (post.zipIdx (pre.length + 1)).map (slotOf (env.isConstant s₁) ps)) = [] := by
      refine congrArg List.reverse (dropWhile_reverse_of_repeatable fun t ht => ?_)
      rcases List.mem_append.mp ht with ht | ht
      · exact hrepeatable hpre t ht
      · rcases List.mem_cons.mp ht with rfl | ht
        · rfl
        · exact hrepeatable hpost t ht
    have hnothing : (List.mapM (bindSlot self) []).runIn env s₁ = (.ok [], s₁) := rfl
    rw [hnone, LowerM.runIn_bind_ok hnothing, LowerM.runIn_bind_ok hbody]
    refine ⟨_, _, rfl, ?_⟩
    rw [htexts]
    exact .name hident
  | false =>
    have hmust : Slot.mustBind ⟨.expr e, useCount pre.length ps, false⟩ := by
      simpa [Slot.mustBind] using huses
    rw [bindingRange_eq_append_singleton hmust (hrepeatable hpost),
      LowerM.runIn_bind_ok (runIn_bindSlots_one (hrepeatable hpre) (by omega) hrun)]
    obtain ⟨texts, htexts, hbody⟩ := hbound (s₁.newLocal "_t").1
    have hnames : ((pre.zipIdx.map (slotOf (env.isConstant s) ps)).map fun _ => none) ++
        [some ⟨(s₁.newLocal "_t").1, f.text⟩] = boundAt pre ⟨(s₁.newLocal "_t").1, f.text⟩ := by
      simp [boundAt, Function.comp_def]
    rw [hnames, LowerM.runIn_bind_ok hbody, htexts]
    have hone : (boundAt pre ⟨(s₁.newLocal "_t").1, f.text⟩).filterMap id =
        [⟨(s₁.newLocal "_t").1, f.text⟩] := by
      simp [boundAt, List.filterMap_append]
    rw [hone]
    exact ⟨_, _, rfl, .bound hident⟩

end

end Template

end GoLua
