import GoLua.Proofs.Template.SingleEvaluation
import Mathlib.Data.List.Nodup

/-!
# Templates that bind nothing

Most rules of operators are templates that refer to each operand once. Such a template binds nothing,
and its pieces are written one after the other, each lowering its operand where it stands
(`runIn_renderAs_inline`). The equations below say what that comes to for one operand and for two, so
that the rules of operators are known by the texts of their operands.

What a lowered expression is written as is `Env.written`: a constant needs no brackets wherever it
stands, and everything else gets those that it needs.
-/

namespace GoLua

open Lower

/-- What is written of a lowered expression that is an operand. -/
def Env.written (env : Env) (s : FunctionState) (e : Expr) (f : Fragment) : String :=
  if (env.constant? s e.id).isSome then f.text else f.operand

section

variable {env : Env} {s : FunctionState} {e : Expr}

/-- An operand that is not known is written bracketed. -/
theorem Env.written_of_unknown (h : env.constant? s e.id = none) (f : Fragment) :
    env.written s e f = f.operand := by
  rw [written, h]
  rfl

/-- A known one is written as it is. -/
theorem Env.written_of_known {c : Constant} (h : env.constant? s e.id = some c) (f : Fragment) :
    env.written s e f = f.text := by
  rw [written, h]
  rfl

end

namespace Template

/-- The operands that pieces evaluate, as often as they do. -/
def evaluated (ps : List Piece) : List Nat :=
  ps.filterMap fun
    | .placeholder _ i tag => if tag.evaluates then some i else none
    | _ => none

/-- The uses of an operand are its places in the list of those evaluated. -/
theorem useCount_eq_count (i : Nat) (ps : List Piece) : useCount i ps = (evaluated ps).count i := by
  induction ps with
  | nil => rfl
  | cons q ps ih =>
    rw [useCount_cons, ih]
    cases q with
    | literal | percent => simp [useCount, evaluated]
    | placeholder digits j tag =>
      cases htag : tag.evaluates <;> simp [useCount, evaluated, htag, List.count_cons, Nat.add_comm]

section

variable {self : Lowering} {env : Env} {s s₁ s' : FunctionState} {operands : List Operand}
  {pattern : String} {ps : List Piece} {texts : List String}

/-- Where no operand is referred to twice, nothing must be bound. -/
theorem bindingRange_eq_nil (h : (evaluated ps).Nodup) (constant : NodeId → Bool) :
    bindingRange (operands.zipIdx.map (slotOf constant ps)) = [] := by
  rw [← List.length_eq_zero_iff]
  refine Nat.eq_zero_of_not_pos fun hpos => ?_
  obtain ⟨j, slot, -, hslot, hmust⟩ := lt_length_bindingRange_iff.mp hpos
  rw [getElem?_slotOf] at hslot
  obtain ⟨o, -, rfl⟩ := Option.map_eq_some_iff.mp hslot
  have hcount := List.nodup_iff_count_le_one.mp h j
  rw [← useCount_eq_count] at hcount
  have huses : 1 < useCount j ps := of_decide_eq_true (Bool.and_eq_true_iff.mp hmust).1
  omega

/-- **Templates that bind nothing.** Where no operand is referred to twice, the pieces are written
one after the other. -/
theorem runIn_renderAs_inline (hparse : parse operands.length pattern = .ok ps)
    (honce : (evaluated ps).Nodup)
    (h : (ps.mapM (pieceText self pattern (withNames operands []))).runIn env s = (.ok texts, s'))
    (parens : Bool) :
    (renderAs parens self pattern operands).runIn env s =
      (.ok ⟨String.join texts, parens⟩, s') := by
  rw [renderAs, hparse]
  dsimp only
  rw [LowerM.runIn_bind_ok (runIn_slots env s operands ps), bindingRange_eq_nil honce]
  have hnone : (List.mapM (bindSlot self) []).runIn env s = (.ok [], s) := rfl
  rw [LowerM.runIn_bind_ok hnone, LowerM.runIn_bind_ok h]
  rfl

/-! ### Pieces -/

/-- Pieces are written one after the other. -/
theorem runIn_pieces_cons {named : List (Operand × Option String)} {q : Piece} {text : String}
    (hq : (pieceText self pattern named q).runIn env s = (.ok text, s₁))
    (hps : (ps.mapM (pieceText self pattern named)).runIn env s₁ = (.ok texts, s')) :
    ((q :: ps).mapM (pieceText self pattern named)).runIn env s = (.ok (text :: texts), s') := by
  rw [List.mapM_cons, LowerM.runIn_bind_ok hq, LowerM.runIn_bind_ok hps]
  rfl

/-- An operand is written for a tag, wherever it stands among the operands. -/
def Puts (self : Lowering) (env : Env) (tag : Tag) (s : FunctionState) (e : Expr) (text : String)
    (s' : FunctionState) : Prop :=
  ∀ {pattern : String} {named : List (Operand × Option String)} {digits : List Char} {i : Nat},
    named[i]? = some (.expr e, none) →
      (pieceText self pattern named (.placeholder digits i tag)).runIn env s = (.ok text, s')

variable {e left right : Expr} {f : Fragment} {l r text : String} {tag tag' : Tag}

/-- An operand that is lowered where it stands. -/
theorem Puts.expression (h : (self e none).runIn env s = (.ok f, s')) :
    Puts self env .expression s e (env.written s e f) s' := by
  intro pattern named digits i hoperand
  rw [pieceText, hoperand]
  dsimp only [placeholderText]
  rw [expressionText, LowerM.runIn_bind_ok (runIn_constantOf env s e), Env.written]
  cases env.constant? s e.id with
  | none => exact LowerM.runIn_bind_ok h _
  | some c => exact LowerM.runIn_bind_ok h _

/-- What has no known value is written with the brackets that it needs. -/
theorem Puts.operand (hunknown : env.constant? s e.id = none)
    (h : (self e none).runIn env s = (.ok f, s')) : Puts self env .expression s e f.operand s' := by
  rw [← Env.written_of_unknown hunknown f]
  intro pattern named digits i
  exact Puts.expression h

/-- A constant is written without brackets. -/
theorem Puts.known {c : Constant} (hvalue : env.constant? s e.id = some c)
    (h : (self e none).runIn env s = (.ok f, s')) : Puts self env .expression s e f.text s' := by
  rw [← Env.written_of_known hvalue f]
  intro pattern named digits i
  exact Puts.expression h

/-- An operand that is lowered where it stands, unless it is an integer constant. -/
theorem Puts.folded (hvalue : (env.constant? s e.id).bind Constant.toInt? = none)
    (h : (self e none).runIn env s = (.ok f, s')) :
    Puts self env .folded s e (env.written s e f) s' := by
  intro pattern named digits i hoperand
  rw [pieceText, hoperand]
  dsimp only [placeholderText]
  rw [expressionText, LowerM.runIn_bind_ok (runIn_constantOf env s e), Env.written]
  cases hc : env.constant? s e.id with
  | none => exact LowerM.runIn_bind_ok h _
  | some c =>
    have hnone : c.toInt? = none := by
      rw [hc] at hvalue
      exact hvalue
    dsimp only
    rw [hnone]
    exact LowerM.runIn_bind_ok h _

/-- An integer constant is written by its value, and nothing is lowered. -/
theorem Puts.folded_constant {n : Int}
    (hvalue : (env.constant? s e.id).bind Constant.toInt? = some n) :
    Puts self env .folded s e (Lua.intLiteral n) s := by
  intro pattern named digits i hoperand
  obtain ⟨c, hc, hn⟩ := Option.bind_eq_some_iff.mp hvalue
  rw [pieceText, hoperand]
  dsimp only [placeholderText]
  rw [expressionText, LowerM.runIn_bind_ok (runIn_constantOf env s e), hc]
  dsimp only
  rw [hn]
  rfl

/-! ### Patterns -/

/-- Pieces that write the same text in every state, and change none. -/
def Fixed (self : Lowering) (env : Env) (pattern : String) (named : List (Operand × Option String))
    (ps : List Piece) (text : String) : Prop :=
  ∃ texts, String.join texts = text ∧
    ∀ s, (ps.mapM (pieceText self pattern named)).runIn env s = (.ok texts, s)

/-- Two runs of pieces one after the other are a run of both. -/
theorem runIn_pieces_append {named : List (Operand × Option String)} {qs : List Piece}
    {texts' : List String}
    (hps : (ps.mapM (pieceText self pattern named)).runIn env s = (.ok texts, s₁))
    (hqs : (qs.mapM (pieceText self pattern named)).runIn env s₁ = (.ok texts', s')) :
    ((ps ++ qs).mapM (pieceText self pattern named)).runIn env s = (.ok (texts ++ texts'), s') := by
  rw [List.mapM_append, LowerM.runIn_bind_ok hps, LowerM.runIn_bind_ok hqs]
  rfl

variable (operands) (before between after : List Piece) {b m a : String} {i j : Nat}
  {digits digits' : List Char}

/-- Fixed text around one operand. -/
theorem runIn_renderAs_one
    (hparse : parse operands.length pattern = .ok (before ++ .placeholder digits i tag :: after))
    (honce : (evaluated (before ++ .placeholder digits i tag :: after)).Nodup)
    (hoperand : operands[i]? = some (.expr e))
    (hbefore : Fixed self env pattern (withNames operands []) before b)
    (h : Puts self env tag s e text s')
    (hafter : Fixed self env pattern (withNames operands []) after a) (parens : Bool) :
    (renderAs parens self pattern operands).runIn env s = (.ok ⟨b ++ text ++ a, parens⟩, s') := by
  obtain ⟨bs, rfl, hbefore⟩ := hbefore
  obtain ⟨as, rfl, hafter⟩ := hafter
  have hnamed : (withNames operands [])[i]? = some (.expr e, none) := by
    simp [withNames, List.getElem?_zipIdx, hoperand]
  refine (runIn_renderAs_inline hparse honce
    (runIn_pieces_append (hbefore s) (runIn_pieces_cons (h hnamed) (hafter s'))) parens).trans ?_
  simp [String.join_append, String.append_assoc]

/-- Fixed text around and between two operands. -/
theorem runIn_renderAs_two
    (hparse : parse operands.length pattern =
      .ok (before ++ .placeholder digits i tag :: (between ++ .placeholder digits' j tag' :: after)))
    (honce : (evaluated
      (before ++ .placeholder digits i tag :: (between ++ .placeholder digits' j tag' :: after))).Nodup)
    (hleft : operands[i]? = some (.expr left)) (hright : operands[j]? = some (.expr right))
    (hbefore : Fixed self env pattern (withNames operands []) before b)
    (hl : Puts self env tag s left l s₁)
    (hbetween : Fixed self env pattern (withNames operands []) between m)
    (hr : Puts self env tag' s₁ right r s')
    (hafter : Fixed self env pattern (withNames operands []) after a) (parens : Bool) :
    (renderAs parens self pattern operands).runIn env s =
      (.ok ⟨b ++ l ++ m ++ r ++ a, parens⟩, s') := by
  obtain ⟨bs, rfl, hbefore⟩ := hbefore
  obtain ⟨ms, rfl, hbetween⟩ := hbetween
  obtain ⟨as, rfl, hafter⟩ := hafter
  have hnamed {i : Nat} {e : Expr} (h : operands[i]? = some (.expr e)) :
      (withNames operands [])[i]? = some (.expr e, none) := by
    simp [withNames, List.getElem?_zipIdx, h]
  -- The run is that of five parts: the texts before, between and behind the two operands, which are
  -- lowered in turn.
  refine (runIn_renderAs_inline hparse honce
    (runIn_pieces_append (hbefore s) (runIn_pieces_cons (hl (hnamed hleft))
      (runIn_pieces_append (hbetween s₁) (runIn_pieces_cons (hr (hnamed hright)) (hafter s')))))
    parens).trans ?_
  simp [String.join_append, String.append_assoc]

end

end Template

end GoLua
