import GoLua.Proofs.Temporaries
import GoLua.Proofs.Text.Fragments

/-!
# Statements in scope

A temporary may be read behind the statement that assigns it: in the same list of statements, or in
the branch and the value of a guard further on. What is assigned in a branch can be read there and in
the value of its guard, but not behind the guard, which assigns its own result and nothing else
(`Statement.results`).

`Scoped V known ss` says that all texts of the statements are in the grammar of emitted text and read
no other generated names than those that are `known` before and those that were assigned on the way.
-/

namespace GoLua

open Lua

/-! ### Results -/

/-- What may be read behind a statement. -/
def Statement.results : Statement → List String
  | .assign target _ => [target]
  | .callAssign target _ _ => target.toList
  | .guard result _ _ _ _ => [result]

/-- What may be read behind several statements. -/
def resultsOf (ss : List Statement) : List String :=
  ss.flatMap Statement.results

/-- What two lists of statements bind, they bind together. -/
theorem resultsOf_append (ss ts : List Statement) :
    resultsOf (ss ++ ts) = resultsOf ss ++ resultsOf ts :=
  List.flatMap_append

theorem resultsOf_cons (s : Statement) (ss : List Statement) :
    resultsOf (s :: ss) = s.results ++ resultsOf ss :=
  List.flatMap_cons

@[simp] theorem resultsOf_singleton (s : Statement) : resultsOf [s] = s.results :=
  List.flatMap_singleton _ _

/-- The names that are known, and more. -/
def knowing (known : String → Prop) (names : List String) : String → Prop :=
  fun w => known w ∨ w ∈ names

/-- A text that is a name. -/
def IsNamed (text : String) : Prop :=
  ∀ c ∈ text.toList, isNameChar c

/-! ### Scopes -/

mutual

/-- The texts of a statement read only what is known, or assigned on the way to them. -/
def Statement.Scoped (V : Vocabulary) (known : String → Prop) : Statement → Prop
  | .assign target value => (IsNamed target ∨ Emits V known false target) ∧ Emits V known false value
  | .callAssign target call _ => (∀ name ∈ target, IsNamed name) ∧ Emits V known false call
  | .guard result condition _ body value =>
    IsNamed result ∧ Emits V known false condition ∧ GoLua.Scoped V known body ∧
      Emits V (knowing known (resultsOf body)) false value
termination_by structural s => s

/-- The texts of several statements read only what is known, or assigned before. -/
def Scoped (V : Vocabulary) (known : String → Prop) : List Statement → Prop
  | [] => True
  | s :: ss => s.Scoped V known ∧ GoLua.Scoped V (knowing known s.results) ss
termination_by structural ss => ss

end

section

variable {V : Vocabulary} {known known' : String → Prop}

/-- No results are known of no statements. -/
theorem knowing_nil (known : String → Prop) : knowing known [] = known := by
  funext w
  simp [knowing]

/-- More that is known before is known behind the same statements. -/
theorem knowing_mono (h : ∀ w, known w → known' w) (names : List String) :
    ∀ w, knowing known names w → knowing known' names w :=
  fun w hw => hw.imp_left (h w)

/-- What a first list binds is known in the second one. -/
theorem knowing_append (known : String → Prop) (names names' : List String) :
    knowing (knowing known names) names' = knowing known (names ++ names') := by
  funext w
  simp only [knowing, List.mem_append, or_assoc]

mutual

/-- A statement is in scope where more is known. -/
theorem Statement.Scoped.mono {known known' : String → Prop} (s : Statement)
    (h : s.Scoped V known) (hknown : ∀ w, known w → known' w) : s.Scoped V known' := by
  cases s with
  | assign target value => exact ⟨h.1.imp_right (·.mono hknown), h.2.mono hknown⟩
  | callAssign target call step => exact ⟨h.1, h.2.mono hknown⟩
  | guard result condition isAnd body value =>
    obtain ⟨hresult, hcondition, hbody, hvalue⟩ := h
    exact ⟨hresult, hcondition.mono hknown, Scoped.mono body hbody hknown,
      hvalue.mono (knowing_mono hknown _)⟩
termination_by structural s

/-- More may be known. -/
theorem Scoped.mono {known known' : String → Prop} (ss : List Statement) (h : Scoped V known ss)
    (hknown : ∀ w, known w → known' w) : Scoped V known' ss := by
  cases ss with
  | nil => exact h
  | cons s ss =>
    exact ⟨Statement.Scoped.mono s h.1 hknown, Scoped.mono ss h.2 (knowing_mono hknown _)⟩
termination_by structural ss

end

/-- Statements behind others may read what those have assigned. -/
theorem scoped_append {ss ts : List Statement} :
    Scoped V known (ss ++ ts) ↔ Scoped V known ss ∧ Scoped V (knowing known (resultsOf ss)) ts := by
  induction ss generalizing known with
  | nil => simp [Scoped, resultsOf, knowing_nil]
  | cons s ss ih =>
    rw [List.cons_append, Scoped, Scoped, ih, knowing_append, resultsOf_cons, and_assoc]

theorem scoped_singleton {s : Statement} : Scoped V known [s] ↔ s.Scoped V known := by
  simp [Scoped]

end

end GoLua
