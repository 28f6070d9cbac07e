import GoLua.Lower.Expr
import GoLua.Proofs.Law
import GoLua.Proofs.Written.State

/-!
# Runs that keep to the vocabulary

`Delivers V env s m Q` says of a run of `m` from a sound state: the state that it leaves is sound and
has grown, a result satisfies `Q` in that state, and a failure is one that may arise. Failing runs are
spoken of as well, since the statements that they leave stay.

The operations of lowering deliver, and the two that rearrange statements do so because they put them
only where more may be read than before (`Delivers.logical`, `Delivers.add`).
-/

namespace GoLua

open Lua

section

variable {V : Vocabulary} {env : Env} {s s₁ s₂ s' : FunctionState} {α β : Type}

/-- What a run from a sound state ends in. -/
structure Delivered (V : Vocabulary) (s : FunctionState) (r : Except CompileError α)
    (s' : FunctionState) (Q : FunctionState → α → Prop) : Prop where
  sound : s'.Sound V
  grows : Grows s s'
  result : ∀ a, r = .ok a → Q s' a
  failure : ∀ e, r = .error e → V.failure e

/-- Runs from a sound state deliver. -/
def Delivers (V : Vocabulary) (env : Env) (s : FunctionState) (m : LowerM α)
    (Q : FunctionState → α → Prop) : Prop :=
  s.Sound V → ∀ r s', m.runIn env s = (r, s') → Delivered V s r s' Q

/-- A fragment that is sound where it can be read. -/
def IsSound (V : Vocabulary) (s : FunctionState) (f : Fragment) : Prop :=
  f.Sound V (Readable V s)

/-- A text that is in the grammar where it can be read. -/
def IsText (V : Vocabulary) (flat : Bool) (s : FunctionState) (text : String) : Prop :=
  Emits V (Readable V s) flat text

/-- A sound fragment is sound later on. -/
theorem IsSound.mono {f : Fragment} (h : IsSound V s f) (hgrows : Grows s s') : IsSound V s' f :=
  Fragment.Sound.mono h fun _ => hgrows.readable

/-- A text that can be read still can later on. -/
theorem IsText.mono {flat : Bool} {text : String} (h : IsText V flat s text) (hgrows : Grows s s') :
    IsText V flat s' text :=
  Emitted.mono h fun _ => hgrows.readable

namespace Delivers

variable {m : LowerM α} {f : α → LowerM β} {Q Q' : FunctionState → α → Prop}
  {R : FunctionState → β → Prop} {e : Expr}

/-! ### Composing -/

/-- What is delivered may be described by less. -/
theorem weaken (h : Delivers V env s m Q) (hQ : ∀ s' a, Grows s s' → Q s' a → Q' s' a) :
    Delivers V env s m Q' := by
  intro hs r s' hrun
  have hd := h hs r s' hrun
  exact ⟨hd.sound, hd.grows, fun a ha => hQ s' a hd.grows (hd.result a ha), hd.failure⟩

/-- In sequence, the second part starts where the first one ended. -/
theorem bind (first : Delivers V env s m Q)
    (rest : ∀ s₁ a, Grows s s₁ → Q s₁ a → Delivers V env s₁ (f a) R) :
    Delivers V env s (m >>= f) R := by
  intro hs r s' hrun
  rcases hm : m.runIn env s with ⟨err | a, s₁⟩
  · rw [LowerM.runIn_bind_error hm] at hrun
    obtain ⟨rfl, rfl⟩ := Prod.mk.inj hrun
    have hd := first hs _ _ hm
    exact ⟨hd.sound, hd.grows, fun _ h => (nomatch h), fun e he => hd.failure e (by cases he; rfl)⟩
  · rw [LowerM.runIn_bind_ok hm] at hrun
    have hd := first hs _ _ hm
    have hd' := rest s₁ a hd.grows (hd.result a rfl) hd.sound r s' hrun
    exact ⟨hd'.sound, hd.grows.trans hd'.grows, hd'.result, hd'.failure⟩

/-- A result may be changed behind the run. -/
theorem map (g : α → β) (h : Delivers V env s m Q) (hg : ∀ s' a, Q s' a → R s' (g a)) :
    Delivers V env s (g <$> m) R := by
  rw [map_eq_pure_bind]
  refine h.bind fun s₁ a _ ha hs r s' hrun => ?_
  obtain ⟨rfl, rfl⟩ := Prod.mk.inj hrun
  exact ⟨hs, .refl _, fun b hb => by cases hb; exact hg s₁ a ha, fun _ h => by cases h⟩

/-- The state in front of a run is sound. -/
theorem assuming (h : s.Sound V → Delivers V env s m Q) : Delivers V env s m Q :=
  fun hs => h hs hs

/-- What is known of the results of a computation for two reasons. -/
theorem and (h : Delivers V env s m Q) (h' : Delivers V env s m Q') :
    Delivers V env s m fun s' a => Q s' a ∧ Q' s' a := by
  intro hs r s' hrun
  have hd := h hs r s' hrun
  have hd' := h' hs r s' hrun
  exact ⟨hd.sound, hd.grows, fun a ha => ⟨hd.result a ha, hd'.result a ha⟩, hd.failure⟩

/-- Either branch delivers under its condition. -/
theorem ite {c : Prop} [Decidable c] {n : LowerM α} (hm : c → Delivers V env s m Q)
    (hn : ¬ c → Delivers V env s n Q) : Delivers V env s (if c then m else n) Q := by
  split
  · exact hm ‹_›
  · exact hn ‹_›

/-- A computation that only looks. -/
theorem of_still {r : Except CompileError α} (hrun : m.runIn env s = (r, s))
    (hr : ∀ a, s.Sound V → r = .ok a → Q s a) (hfail : ∀ e, r = .error e → V.failure e) :
    Delivers V env s m Q := by
  intro hs r' s' hrun'
  obtain ⟨rfl, rfl⟩ := Prod.mk.inj (hrun.symm.trans hrun')
  exact ⟨hs, .refl s, fun a => hr a hs, hfail⟩

theorem pure {a : α} (h : Q s a) : Delivers V env s (pure a) Q :=
  of_still (LowerM.runIn_pure env s a) (fun _ _ hb => by cases hb; exact h) fun _ h => by cases h

/-- A computation that only looks comes first. -/
theorem look {a : α} (hrun : m.runIn env s = (.ok a, s))
    (rest : s.Sound V → Delivers V env s (f a) R) : Delivers V env s (m >>= f) R := by
  intro hs r s' hrun'
  rw [LowerM.runIn_bind_ok hrun] at hrun'
  exact rest hs hs r s' hrun'

/-- A computation that only looks, and may not find what it looks for, comes first. -/
theorem find {r : Except CompileError α} (hrun : m.runIn env s = (r, s))
    (hfail : ∀ e, r = .error e → V.failure e)
    (rest : ∀ a, s.Sound V → r = .ok a → Delivers V env s (f a) R) :
    Delivers V env s (m >>= f) R := by
  cases r with
  | error err =>
    intro hs r' s' hrun'
    rw [LowerM.runIn_bind_error hrun] at hrun'
    obtain ⟨rfl, rfl⟩ := Prod.mk.inj hrun'
    exact ⟨hs, .refl _, fun _ h => (nomatch h), fun e he => hfail e (by cases he; rfl)⟩
  | ok a => exact look hrun fun hs => rest a hs rfl

/-- A computation that takes one step and succeeds. -/
theorem of_step {a : α} (hrun : m.runIn env s = (.ok a, s'))
    (h : s.Sound V → s'.Sound V ∧ Grows s s' ∧ Q s' a) : Delivers V env s m Q := by
  intro hs r s'' hrun'
  obtain ⟨rfl, rfl⟩ := Prod.mk.inj (hrun.symm.trans hrun')
  obtain ⟨hsound, hgrows, ha⟩ := h hs
  exact ⟨hsound, hgrows, fun b hb => by cases hb; exact ha, fun _ h => by cases h⟩

/-- Several computations, one after the other; what is known of their results lasts. -/
theorem mapM {g : α → LowerM β} {P : α → FunctionState → β → Prop} {as : List α}
    (hP : ∀ {a s s' b}, Grows s s' → P a s b → P a s' b)
    (h : ∀ a ∈ as, ∀ s', Grows s s' → Delivers V env s' (g a) (P a)) :
    Delivers V env s (as.mapM g) fun s' bs => List.Forall₂ (fun a b => P a s' b) as bs := by
  induction as generalizing s with
  | nil => exact .pure .nil
  | cons a as ih =>
    rw [List.mapM_cons]
    refine (h a (by simp) s (.refl s)).bind fun s₁ b hgrows hb => ?_
    refine (ih fun a ha s' hs' => h a (by simp [ha]) s' (hgrows.trans hs')).bind
      fun s₂ bs hgrows' hbs => ?_
    exact .pure (.cons (hP hgrows' hb) hbs)

/-- As `mapM`, where the same is known of all results. -/
theorem mapM_all {g : α → LowerM β} {P : FunctionState → β → Prop} {as : List α}
    (hP : ∀ {s s' b}, Grows s s' → P s b → P s' b)
    (h : ∀ a ∈ as, ∀ s', Grows s s' → Delivers V env s' (g a) P) :
    Delivers V env s (as.mapM g) fun s' bs => ∀ b ∈ bs, P s' b := by
  induction as generalizing s with
  | nil => exact .pure fun _ h => absurd h List.not_mem_nil
  | cons a as ih =>
    rw [List.mapM_cons]
    refine (h a (by simp) s (.refl s)).bind fun s₁ b hgrows hb => ?_
    refine (ih fun a ha s' hs' => h a (by simp [ha]) s' (hgrows.trans hs')).bind
      fun s₂ bs hgrows' hbs => ?_
    exact .pure (List.forall_mem_cons.mpr ⟨hP hgrows' hb, hbs⟩)

/-! ### Failing -/

/-- A failure delivers, unless it is that of a malformed pattern. -/
theorem fail {err : LowerError} (h : (CompileError.gap err).isMalformed = false) :
    Delivers V env s (Lower.fail err : LowerM α) Q :=
  of_still (Lower.runIn_fail env s err) (fun _ _ h => by cases h)
    fun _ he => by cases he; exact V.fails h

/-- An unsupported construct is such a failure. -/
theorem unsupported {construct : Construct} :
    Delivers V env s (Lower.unsupported e construct : LowerM α) Q :=
  fail rfl

/-- So is what a function without a state fails with. -/
theorem ofExcept {r : Except LowerError α} (hr : ∀ a, r = .ok a → Q s a)
    (hfail : ∀ err, r = .error err → (CompileError.gap err).isMalformed = false) :
    Delivers V env s (Lower.ofExcept r) Q := by
  cases r with
  | ok a => exact .pure (hr a rfl)
  | error err => exact fail (hfail err rfl)

/-! ### Looking at facts -/

section

variable {k : Expr → LowerM β}

/-- Looking at the state, it may be taken to be sound. -/
theorem view {g : Env → FunctionState → α} {k : α → LowerM β}
    (rest : s.Sound V → Delivers V env s (k (g env s)) R) :
    Delivers V env s (Lower.view g >>= k) R :=
  look (Lower.runIn_view env s g) rest

/-- The configuration is at hand. -/
theorem config {g : Config → α} {k : α → LowerM β}
    (rest : Delivers V env s (k (g env.config)) R) : Delivers V env s (Lower.config g >>= k) R :=
  look (Lower.runIn_config env s g) fun _ => rest

/-- What the configuration decides comes last. -/
theorem configured {g : Config → α} (h : Q s (g env.config)) :
    Delivers V env s (Lower.config g) Q :=
  of_still (Lower.runIn_config env s g) (fun _ _ ha => by cases ha; exact h) fun _ h => by cases h

/-- A recorded type can be spelled. -/
theorem typeOf (henv : env.Plain V) {k : GoType → LowerM β}
    (rest : ∀ t, t.Spelled V → Delivers V env s (k t) R) :
    Delivers V env s (Lower.typeOf e >>= k) R := by
  refine find (Lower.runIn_typeOf env s e) (fun err herr => ?_) fun t hs ht => ?_
  · split at herr
    · cases herr
    · cases herr
      exact V.fails rfl
  · split at ht
    · next type htype =>
      cases ht
      exact rest t (hs.type? henv htype)
    · cases ht

/-- What is missing is a failure of the given kind. -/
theorem orFail {value : Option α} {err : LowerError}
    (herr : (CompileError.gap err).isMalformed = false) {k : α → LowerM β}
    (rest : ∀ a, value = some a → Delivers V env s (k a) R) :
    Delivers V env s (Lower.orFail value err >>= k) R := by
  cases value with
  | some a => exact look (LowerM.runIn_pure env s a) fun _ => rest a rfl
  | none =>
    refine find (Lower.runIn_fail env s err) (fun e he => ?_) fun _ _ h => nomatch h
    cases he
    exact V.fails herr

/-- The entity that an identifier is bound to may be named. -/
theorem objectOf (henv : env.Plain V) (he : Settled V s e.id) {k : Object → LowerM β}
    (rest : ∀ obj, obj.Sound V (Readable V s) → (env.binding s e.id).object? = some obj →
      Delivers V env s (k obj) R) : Delivers V env s (Lower.objectOf e >>= k) R := by
  unfold Lower.objectOf
  rw [bind_assoc]
  refine look rfl fun hs => orFail rfl fun obj hobj => ?_
  exact rest obj (hs.object henv he hobj) hobj

/-- How a selector was resolved keeps to the vocabulary. -/
theorem selectionOf (henv : env.Plain V) {k : Option Selection → LowerM β}
    (unresolved : Delivers V env s (k none) R)
    (resolved : ∀ selection, selection.Plain V → env.selection? s e.id = some selection →
      Delivers V env s (k (some selection)) R) :
    Delivers V env s (Lower.selectionOf e >>= k) R := by
  refine view fun hs => ?_
  cases hselection : env.selection? s e.id with
  | none => exact unresolved
  | some selection => exact resolved selection (hs.selection? henv hselection) hselection

/-- Whether an expression is `nil` changes nothing. -/
theorem isNil {k : Bool → LowerM β} (rest : ∀ b, Delivers V env s (k b) R) :
    Delivers V env s (Lower.isNil e >>= k) R := by
  unfold Lower.isNil
  split
  · rw [bind_assoc]
    refine look rfl fun _ => ?_
    rw [pure_bind]
    exact rest _
  · rw [pure_bind]
    exact rest _

/-- Constants are written without blanks, whatever they ask for. -/
theorem constantLower {c : Constant} {type : GoType} {desired : Option GoType}
    {location : Location} :
    Delivers V env s (Lower.ofExcept (c.lower type desired location))
      fun s' f => IsText V true s' f.text ∧ IsSound V s' f := by
  refine ofExcept (fun f hf => ?_) fun err herr => ?_
  · have htext : IsText V true s f.text := emits_constant hf
    exact ⟨htext, htext.loose, fun _ => htext⟩
  · unfold Constant.lower at herr
    repeat' split at herr
    all_goals cases herr
    all_goals rfl

/-- The zero value of a type. -/
theorem zeroFor {t : GoType} {k : String → LowerM β}
    (rest : ∀ zero, t.zero = .ok zero → IsText V true s zero → Delivers V env s (k zero) R) :
    Delivers V env s (Lower.zeroFor e t >>= k) R := by
  unfold Lower.zeroFor GoType.zeroAt
  cases hzero : t.zero with
  | ok zero => exact look (LowerM.runIn_pure env s zero) fun _ => rest zero hzero (emits_zero hzero)
  | error culprit =>
    refine find (Lower.runIn_fail env s _) (fun err herr => ?_) fun _ _ h => nomatch h
    cases herr
    exact V.fails rfl

/-- A zero value is written without anything of the state. -/
theorem zeroOf {t : GoType} : Delivers V env s (Lower.zeroFor e t) (IsText V true) := by
  rw [← bind_pure (Lower.zeroFor e t)]
  exact zeroFor fun zero _ hzero => .pure hzero

/-- The way along fields. -/
theorem pathFrom {t : GoType} (ht : t.Spelled V) {index : List Nat} {span : Span}
    {k : FieldPath → LowerM β}
    (rest : ∀ path, path.Spelled V → Delivers V env s (k path) R) :
    Delivers V env s (Lower.pathFrom t index span >>= k) R := by
  unfold Lower.pathFrom
  rw [bind_assoc]
  refine look (Lower.runIn_config env s _) fun _ => ?_
  cases hpath : resolvePath env.config t index with
  | ok path =>
    exact look (LowerM.runIn_pure env s path) fun _ => rest path (spelled_resolvePath ht hpath)
  | error construct =>
    refine find (Lower.runIn_fail env s _) (fun err herr => ?_) fun _ _ h => nomatch h
    cases herr
    exact V.fails rfl

end

end Delivers

end

end GoLua
