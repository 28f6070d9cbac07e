import GoLua.Proofs.Run

/-!
# Computations that only look

Most rules find out what they need before they lower anything: types, constants, slots, zero values.
Such a computation is *still*: whether it succeeds or fails, it leaves the state as it was.
-/

namespace GoLua.Lower

variable {α β : Type} {m : LowerM α}

/-- A computation that leaves the state alone. -/
def Still (m : LowerM α) : Prop :=
  ∀ env s, (m.runIn env s).2 = s

namespace Still

theorem runIn_eq_ok (h : Still m) {env : Env} {s s' : FunctionState} {a : α}
    (hrun : m.runIn env s = (.ok a, s')) : s' = s := by
  rw [← h env s, hrun]

theorem pure (a : α) : Still (pure a : LowerM α) :=
  fun _ _ => rfl

theorem fail (e : LowerError) : Still (fail e : LowerM α) :=
  fun _ _ => rfl

theorem view (f : Env → FunctionState → α) : Still (view f) :=
  fun _ _ => rfl

theorem bind (h : Still m) {f : α → LowerM β} (hf : ∀ a, Still (f a)) : Still (m >>= f) := by
  intro env s
  rw [LowerM.runIn_bind]
  rcases hm : m.runIn env s with ⟨_ | a, s₁⟩
  · exact (congrArg Prod.snd hm).symm.trans (h env s)
  · rw [h.runIn_eq_ok hm]
    exact hf a env s

theorem map (h : Still m) (f : α → β) : Still (f <$> m) :=
  h.bind fun _ => .pure _

theorem ofExcept (r : Except LowerError α) : Still (ofExcept r) := by
  cases r
  · exact .fail _
  · exact .pure _

theorem mapM {f : α → LowerM β} (h : ∀ a, Still (f a)) (as : List α) : Still (as.mapM f) := by
  induction as with
  | nil => exact .pure []
  | cons a as ih =>
    rw [List.mapM_cons]
    exact (h a).bind fun _ => ih.bind fun _ => .pure _

end Still

/-- The results are as many as the arguments. -/
theorem length_of_runIn_mapM {f : α → LowerM β} {as : List α} {bs : List β} {env : Env}
    {s s' : FunctionState} (h : (as.mapM f).runIn env s = (.ok bs, s')) : bs.length = as.length := by
  induction as generalizing s bs with
  | nil =>
    obtain ⟨rfl, -⟩ := LowerM.runIn_pure_eq_ok h
    rfl
  | cons a as ih =>
    obtain ⟨b, s₁, rest, -, hrest, rfl⟩ := LowerM.runIn_mapM_cons_eq_ok h
    exact congrArg Nat.succ (ih hrest)

end GoLua.Lower
