import GoLua.Lower.Binary
import GoLua.Lower.Sequence
import GoLua.Proofs.Run

/-!
# Where pending statements are taken out

Two rules look at what their parts leave among the pending statements. A connective takes out what
its right operand left; a sequence takes out what a part left, to put its moves before it. Both
measure the pending list before the part runs and cut it there afterwards. The equations of this
module say what such a run comes to, given the runs of the parts.
-/

namespace GoLua

namespace FunctionState

variable (s : FunctionState)

/-- Cutting behind the last statement takes nothing out. -/
theorem splitAt_of_drop_eq_nil {mark : Nat} (h : s.pending.drop mark = []) :
    s.splitAt mark = ([], s) := by
  have hlength : s.pending.length ≤ mark := List.drop_eq_nil_iff.mp h
  simp [splitAt, h, List.take_of_length_le hlength]

/-- The pending statements of a connective's right operand become the branch of a guard. -/
def guardRight (env : Env) (id : NodeId) (op : BinaryOp) (mark : Nat) (condition value : String) :
    String × FunctionState :=
  let (body, s) := s.splitAt mark
  let (result, s) := s.newTemporary "_v"
  (result,
    s.leave ⟨env.inside, .guard result condition (op == .logicalAnd) body value, some id, none⟩)

/-- Cutting takes out what has been added. -/
theorem splitAt_of_append {before after : List Statement} (h : s.pending = before ++ after) :
    s.splitAt before.length = (after, { s with pending := before }) := by
  simp [splitAt, h]

/-- The branch of the guard is what has been added, and the guard takes its place. -/
theorem guardRight_of_append {before body : List Statement} (h : s.pending = before ++ body)
    (env : Env) (id : NodeId) (op : BinaryOp) (condition value : String) :
    (s.guardRight env id op before.length condition value).2.pending = before ++
        [.guard ("_v" ++ toString s.nextName) condition (op == .logicalAnd) body value] ∧
      (s.guardRight env id op before.length condition value).2.made =
        ⟨env.inside, .guard ("_v" ++ toString s.nextName) condition (op == .logicalAnd) body value,
          some id, none⟩ :: s.made := by
  unfold guardRight
  rw [s.splitAt_of_append h]
  exact ⟨rfl, rfl⟩

end FunctionState

namespace Lower

/-! ### Connectives -/

section Logical

variable {self : Lowering} {env : Env} {s s₁ s₂ : FunctionState} {e left right : Expr}
  {op : BinaryOp} {condition value : Fragment} {err : CompileError}

theorem runIn_logical_left_error (hleft : (self left none).runIn env s = (.error err, s₁)) :
    (logical self e op left right).runIn env s = (.error err, s₁) :=
  LowerM.runIn_bind_error hleft _

theorem runIn_logical_right_error (hleft : (self left none).runIn env s = (.ok condition, s₁))
    (hright : (self right none).runIn (env.inRightOf e.id) s₁ = (.error err, s₂)) :
    (logical self e op left right).runIn env s = (.error err, s₂) := by
  unfold logical
  rw [LowerM.runIn_bind_ok hleft, LowerM.runIn_bind_ok (runIn_pendingCount env s₁)]
  exact LowerM.runIn_bind_error (by rw [runIn_inRightOf, hright]) _

/-- The native operator is written if the right operand left nothing and may not suspend; else what
it left becomes the branch of a guard. -/
theorem runIn_logical_ok (hleft : (self left none).runIn env s = (.ok condition, s₁))
    (hright : (self right none).runIn (env.inRightOf e.id) s₁ = (.ok value, s₂)) :
    (logical self e op left right).runIn env s =
      if s₂.pending.drop s₁.pending.length = [] ∧ env.suspends s₂ right.id = false then
        (.ok (.operation (condition.operand ++ " " ++ op.luaToken ++ " " ++ value.operand)), s₂)
      else
        (.ok (.atom (s₂.guardRight env e.id op s₁.pending.length condition.text value.text).1),
          (s₂.guardRight env e.id op s₁.pending.length condition.text value.text).2) := by
  have hinner : (inRightOf e.id (self right none)).runIn env s₁ = (.ok value, s₂) := by
    rw [runIn_inRightOf, hright]
  unfold logical
  rw [LowerM.runIn_bind_ok hleft, LowerM.runIn_bind_ok (runIn_pendingCount env s₁),
    LowerM.runIn_bind_ok hinner, LowerM.runIn_bind_ok (runIn_splitPending env s₂ _),
    LowerM.runIn_bind_ok (runIn_isSuspending env _ right)]
  -- The mark is looked up after the cut, which leaves marks alone.
  have hmarks : env.suspends (s₂.splitAt s₁.pending.length).2 right.id = env.suspends s₂ right.id :=
    rfl
  rw [hmarks]
  by_cases hnative : s₂.pending.drop s₁.pending.length = [] ∧ env.suspends s₂ right.id = false
  · rw [if_pos hnative, s₂.splitAt_of_drop_eq_nil hnative.1, hnative.2]
    rfl
  · rw [if_neg hnative, if_neg]
    · rfl
    · simpa [FunctionState.splitAt, List.isEmpty_iff] using hnative

end Logical

/-! ### Sequences -/

section Sequence

variable {env : Env} {s s₁ s₂ : FunctionState} {hint text : String} {parts parts' : Parts}
  {m : LowerM String} {err : CompileError}

/-- Moving never fails. -/
theorem exists_runIn_moveToTemporaries (env : Env) (s : FunctionState) (hint : String)
    (texts : List String) :
    ∃ moved s', (moveToTemporaries hint texts).runIn env s = (.ok moved, s') := by
  induction texts generalizing s with
  | nil => exact ⟨[], s, rfl⟩
  | cons text texts ih =>
    unfold moveToTemporaries
    split
    · obtain ⟨moved, s', hrun⟩ := ih s
      exact ⟨text :: moved, s', by rw [LowerM.runIn_bind_ok hrun]; rfl⟩
    · rw [LowerM.runIn_bind_ok (runIn_keepInTemporary env s hint text)]
      obtain ⟨moved, s', hrun⟩ := ih _
      exact ⟨_ :: moved, s', by rw [LowerM.runIn_bind_ok hrun]; rfl⟩

theorem exists_runIn_move (env : Env) (s : FunctionState) (hint : String) (parts : Parts) :
    ∃ parts' s', (parts.move hint).runIn env s = (.ok parts', s') := by
  obtain ⟨moved, s', hrun⟩ := exists_runIn_moveToTemporaries env s hint parts.open
  exact ⟨_, s', by rw [Parts.move, LowerM.runIn_bind_ok hrun]; rfl⟩

theorem runIn_add_error (h : m.runIn env s = (.error err, s₁)) :
    (parts.add hint m).runIn env s = (.error err, s₁) := by
  unfold Parts.add
  rw [LowerM.runIn_bind_ok (runIn_pendingCount env s)]
  exact LowerM.runIn_bind_error h _

/-- A part that left no statements is added as it is. -/
theorem runIn_add_quiet (h : m.runIn env s = (.ok text, s₁))
    (hcount : s₁.pending.length = s.pending.length) :
    (parts.add hint m).runIn env s = (.ok { parts with texts := parts.texts ++ [text] }, s₁) := by
  unfold Parts.add
  rw [LowerM.runIn_bind_ok (runIn_pendingCount env s), LowerM.runIn_bind_ok h,
    LowerM.runIn_bind_ok (runIn_pendingCount env s₁), if_pos hcount]
  rfl

/-- The moves come before what the part has left. -/
theorem runIn_add_moved (h : m.runIn env s = (.ok text, s₁))
    (hcount : s₁.pending.length ≠ s.pending.length)
    (hmove : (parts.move hint).runIn env (s₁.splitAt s.pending.length).2 = (.ok parts', s₂)) :
    (parts.add hint m).runIn env s =
      (.ok { parts' with texts := parts'.texts ++ [text] },
        s₂.putBack (s₁.splitAt s.pending.length).1) := by
  unfold Parts.add
  rw [LowerM.runIn_bind_ok (runIn_pendingCount env s), LowerM.runIn_bind_ok h,
    LowerM.runIn_bind_ok (runIn_pendingCount env s₁), if_neg hcount,
    LowerM.runIn_bind_ok (runIn_splitPending env s₁ _), LowerM.runIn_bind_ok hmove,
    LowerM.runIn_bind_ok (runIn_putBack env s₂ _)]
  rfl

end Sequence

end Lower

end GoLua
