import GoLua.Proofs.SourceOrder.Literal

/-!
# Literals that keep their texts where they stand

A map literal, and a struct literal whose fields are not named, are no sequences in the sense of
`inSequence`: their keys and values are lowered in turn, but no text is moved when a later one leaves
statements. So the statements come in source order, and the texts come in source order, but all
statements run before the first text.

`composite_unmoved` says what this comes to. Everything is evaluated in source order if and only if
nothing has been left behind a text that is not simple, and `pairOfCalls_overtaken` is a literal where
something has. A struct literal that names its fields moves `g()` in the same situation.
-/

namespace GoLua.Lower

open Lua

/-! ### Parts that stay -/

/-- **Lowering without moves.** Each part is lowered in the state that the part before it has left. -/
inductive RunInTurn (env : Env) :
    FunctionState → List (LowerM String) → List PartRun → FunctionState → Prop
  | nil {s : FunctionState} : RunInTurn env s [] [] s
  | cons {s s₁ s' : FunctionState} {m : LowerM String} {rest : List (LowerM String)} {text : String}
      {left : List Statement} {runs : List PartRun}
      (lowered : m.runIn env s = (.ok text, s₁)) (added : s₁.pending = s.pending ++ left)
      (later : RunInTurn env s₁ rest runs s') :
      RunInTurn env s (m :: rest) (⟨text, left, s.nextName, s₁.nextName⟩ :: runs) s'

/-- What is evaluated of parts that stay: the statements that they left, and then their texts. -/
def unmovedOccurrences (runs : List PartRun) : List Occurrence :=
  (movedOccurrences "_k" (runs.map PartRun.inline)).map Prod.fst ++
    inlineOccurrences (List.range runs.length) (runs.map PartRun.text)

section

variable {env : Env} {s s₁ s' : FunctionState} {ms rest : List (LowerM String)} {m : LowerM String}
  {text : String} {runs : List PartRun}

/-- What grows adds a run to the runs that come after it. -/
theorem RunInTurn.of_grows (hgrows : Grows m) (hm : m.runIn env s = (.ok text, s₁))
    (later : RunInTurn env s₁ rest runs s') :
    ∃ run, run.text = text ∧ RunInTurn env s (m :: rest) (run :: runs) s' := by
  obtain ⟨left, hleft⟩ := (hgrows env s text s₁ hm).2
  exact ⟨_, rfl, .cons hm hleft.symm later⟩

/-- Results of a list of computations, one after the other, are those of parts that stay. -/
theorem runInTurn_of_mapM {α : Type} {f : α → LowerM String} (hgrows : ∀ a, Grows (f a))
    {as : List α} {texts : List String} (h : (as.mapM f).runIn env s = (.ok texts, s')) :
    ∃ runs, RunInTurn env s (as.map f) runs s' ∧ runs.map PartRun.text = texts := by
  induction as generalizing s texts with
  | nil =>
    obtain ⟨rfl, rfl⟩ := LowerM.runIn_pure_eq_ok h
    exact ⟨[], .nil, rfl⟩
  | cons a as ih =>
    obtain ⟨text, s₁, texts, ha, hrest, rfl⟩ := LowerM.runIn_mapM_cons_eq_ok h
    obtain ⟨runs, hturn, rfl⟩ := ih hrest
    obtain ⟨run, rfl, hturn⟩ := hturn.of_grows (hgrows a) ha
    exact ⟨run :: runs, hturn, rfl⟩

/-- The statements are those of the parts, and no others. -/
theorem RunInTurn.pending_eq (h : RunInTurn env s ms runs s') :
    s'.pending = s.pending ++
      (movedOccurrences "_k" (runs.map PartRun.inline)).map Prod.snd := by
  rw [map_snd_movedOccurrences]
  induction h with
  | nil => exact (List.append_nil _).symm
  | @cons s s₁ s' m rest text left runs _ added _ ih =>
    have hfirst : (PartRun.inline ⟨text, left, s.nextName, s₁.nextName⟩).statements "_k" = left :=
      List.append_nil left
    rw [ih, added, List.map_cons, List.flatMap_cons, hfirst, List.append_assoc]

/-- **Where the order holds.** The statements run before all texts. So the parts are evaluated in
source order just if no part has left statements behind a text that is not simple. -/
theorem unmovedOccurrences_pairwise (runs : List PartRun) :
    (unmovedOccurrences runs).Pairwise Occurrence.Before ↔
      runs.Pairwise fun earlier later => isSimple earlier.text = false → later.left = [] := by
  have hplaces := InPlaces.range (runs.map PartRun.text)
  have hascending := hplaces.inlineOccurrences_pairwise
    (InPlaces.range_ascending (runs.map PartRun.text))
  have hleft {j : Nat} {run : PartRun} (hj : runs[j]? = some run) (hne : run.left ≠ []) :
      .left j ∈ (movedOccurrences "_k" (runs.map PartRun.inline)).map Prod.fst :=
    fst_mem_movedOccurrences.mpr
      ⟨j, run.inline, by rw [List.getElem?_map, hj]; rfl, .inl ⟨rfl, hne⟩⟩
  rw [List.length_map] at hplaces hascending
  unfold unmovedOccurrences
  rw [List.pairwise_append, List.pairwise_iff_getElem (l := runs)]
  constructor
  · -- Statements of a later part would come before a text of an earlier one.
    rintro ⟨-, -, hacross⟩ i j hi hj hij hsimple
    by_contra hne
    have htext : .text i ∈ inlineOccurrences (List.range runs.length) (runs.map PartRun.text) :=
      hplaces.mem_inlineOccurrences.mpr ⟨i, runs[i].text, rfl,
        by rw [List.getElem?_map, List.getElem?_eq_getElem hi]; rfl, hsimple⟩
    have hbefore := hacross _ (hleft (List.getElem?_eq_getElem hj) hne) _ htext
    exact Nat.not_le_of_lt hij hbefore
  -- Conversely, no part leaves statements behind a text that is not simple.
  · -- Each list is in order by itself, and only statements come before a text.
    intro hquiet
    refine ⟨movedOccurrences_pairwise _, hascending, fun a ha b hb => ?_⟩
    obtain ⟨j, part, hj, hpart⟩ := fst_mem_movedOccurrences.mp ha
    obtain ⟨i, text, rfl, hi, hsimple⟩ := hplaces.mem_inlineOccurrences.mp hb
    rw [List.getElem?_map] at hi hj
    obtain ⟨run, hrun, rfl⟩ := Option.map_eq_some_iff.mp hj
    obtain ⟨earlier, hearlier, rfl⟩ := Option.map_eq_some_iff.mp hi
    obtain ⟨hlti, rfl⟩ := List.getElem?_eq_some_iff.mp hearlier
    obtain ⟨hltj, rfl⟩ := List.getElem?_eq_some_iff.mp hrun
    rcases hpart with ⟨rfl, hne⟩ | ⟨-, hmoved⟩
    · refine Nat.le_of_not_lt fun hij => hne (hquiet i j hlti hltj hij hsimple)
    · exact absurd rfl hmoved

end

/-! ### Keys and values -/

/-- The text of a key of a map. -/
def keyText (self : Lowering) (keyType : GoType) (key : Expr) : LowerM String :=
  Fragment.text <$> mapKey self key keyType

/-- The parts of an element of a map: its key, and then its value. -/
def entryParts (self : Lowering) (key elem : GoType) (element : Element) : List (LowerM String) :=
  element.key.toList.map (keyText self key) ++ [valueText self elem element.value]

/-- The part of an element that goes to a field. -/
def fieldPart (self : Lowering) (p : Element × Field) : LowerM String :=
  valueText self p.2.type p.1.value

/-- The entries that are written for keys and values, which alternate. -/
def entriesOf : List String → List String
  | key :: value :: rest => ("[" ++ key ++ "]=" ++ value) :: entriesOf rest
  | _ => []

/-- A key is lowered by a rule that grows. -/
theorem grows_keyText (n : Nat) (keyType : GoType) (key : Expr) :
    Grows (keyText (within n) keyType key) :=
  grows_of_built fun p => by
    have hfits := RunLaw.fits_of_forall ⟨within n, p, fun _ => True⟩ (fun _ => trivial) key
    exact (Built.mapKey hfits keyType).map Fragment.text fun _ _ => trivial

/-! ### Literals -/

/-- The literals that move nothing: what is lowered for their elements in turn, and what is written for
the texts. -/
inductive UnmovedLiteral (self : Lowering) (elements : List Element) :
    GoType → List (LowerM String) → (List String → String) → Prop
  | positionalStruct {type : GoType} {fields : List Field} (h : type.underlying = .struct fields)
      (hsome : elements ≠ []) (hkeyless : ∀ element ∈ elements, element.key = none) :
      UnmovedLiteral self elements type ((elements.zip fields).map (fieldPart self)) fun texts =>
        structText type (fields.map Field.name) texts
  | map {type key elem : GoType} (h : type.underlying = .map key elem) :
      UnmovedLiteral self elements type (elements.flatMap (entryParts self key elem)) fun texts =>
        mapText (entriesOf texts) key elem

section

variable {n : Nat} {env : Env} {s s' : FunctionState} {e : Expr} {type key elem : GoType}
  {elements : List Element} {f : Fragment}

/-- The entries of a map are lowered key by value by key, and written in pairs. -/
theorem mapEntries_inTurn {entries : List String}
    (h : (mapEntries (within n) e key elem elements).runIn env s = (.ok entries, s')) :
    ∃ runs, RunInTurn env s (elements.flatMap (entryParts (within n) key elem)) runs s' ∧
      entriesOf (runs.map PartRun.text) = entries := by
  induction elements generalizing s entries with
  | nil =>
    obtain ⟨rfl, rfl⟩ := LowerM.runIn_pure_eq_ok h
    exact ⟨[], .nil, rfl⟩
  | cons element elements ih =>
    unfold mapEntries at h
    split at h
    · cases h
    next k hk =>
    obtain ⟨keyOf, s₁, hkey, h⟩ := LowerM.runIn_bind_eq_ok h
    obtain ⟨value, s₂, hvalue, h⟩ := LowerM.runIn_bind_eq_ok h
    obtain ⟨rest, hrest, rfl⟩ := LowerM.runIn_map_eq_ok h
    obtain ⟨runs, hturn, rfl⟩ := ih hrest
    have hkeyText : (keyText (within n) key k).runIn env s = (.ok keyOf.text, s₁) :=
      LowerM.runIn_bind_ok hkey _
    have hvalueText : (valueText (within n) elem element.value).runIn env s₁ = (.ok value.text, s₂) :=
      LowerM.runIn_bind_ok hvalue _
    -- The parts are put in front from the last one to the first.
    obtain ⟨ofValue, hofValue, hturn⟩ := hturn.of_grows (grows_valueText n elem _) hvalueText
    obtain ⟨ofKey, hofKey, hturn⟩ := hturn.of_grows (grows_keyText n key k) hkeyText
    refine ⟨ofKey :: ofValue :: runs, ?_, ?_⟩
    · rw [List.flatMap_cons, entryParts, hk]
      exact hturn
    · rw [List.map_cons, List.map_cons, entriesOf, hofKey, hofValue]

/-- **Nothing is moved.** The keys and values are lowered in turn, every text is written where it
stands, and the statements are those that the parts have left. Everything is evaluated in source order
just if nothing has been left behind a text that is not simple. -/
theorem composite_unmoved {ms : List (LowerM String)} {write : List String → String}
    (htype : env.type? s e.id = some type)
    (hliteral : UnmovedLiteral (within n) elements type.throughPointer ms write)
    (h : (composite (within n) e elements).runIn env s = (.ok f, s')) :
    ∃ runs, RunInTurn env s ms runs s' ∧ f = .atom (write (runs.map PartRun.text)) ∧
      s'.pending = s.pending ++
        (movedOccurrences "_k" (runs.map PartRun.inline)).map Prod.snd ∧
      ((unmovedOccurrences runs).Pairwise Occurrence.Before ↔
        runs.Pairwise fun earlier later => isSimple earlier.text = false → later.left = []) := by
  cases hliteral with
  -- Positional fields are lowered one by one, and nothing is moved.
  | positionalStruct hunderlying hsome hkeyless =>
    have hunkeyed := keyless_iff.mpr ⟨hsome, hkeyless⟩
    rw [runIn_composite_positionalStruct htype hunderlying hunkeyed] at h
    obtain ⟨texts, htexts, rfl⟩ := LowerM.runIn_map_eq_ok h
    unfold positionalFields at htexts
    split at htexts
    · obtain ⟨runs, hturn, rfl⟩ :=
        runInTurn_of_mapM (f := fieldPart (within n)) (fun _ => grows_valueText n _ _) htexts
      exact ⟨runs, hturn, rfl, hturn.pending_eq, unmovedOccurrences_pairwise runs⟩
    · cases htexts
  | map hunderlying =>
    -- Entries of a map are lowered one by one as well, each with its key before its value.
    rw [runIn_composite_map htype hunderlying] at h
    obtain ⟨entries, hentries, rfl⟩ := LowerM.runIn_map_eq_ok h
    obtain ⟨runs, hturn, rfl⟩ := mapEntries_inTurn hentries
    exact ⟨runs, hturn, rfl, hturn.pending_eq, unmovedOccurrences_pairwise runs⟩

/-- `map[string]int{"a": g(), "b": h()}`, where `h` may suspend. -/
def mapOfCalls : Build (Expr × List Element) := do
  let (first, second) ← twoCalls
  let elements : List Element :=
    [⟨some (← Build.string "a"), first⟩, ⟨some (← Build.string "b"), second⟩]
  return (.compositeLit (← Build.node (.map (.basic .string) (.basic .int))) elements, elements)

/-- `g()` stays in its entry, and what `h` has left runs before it. -/
theorem composite_unmoved_mapOfCalls :
    ∃ s' runs,
      (composite (within 9) (mapOfCalls.run {}).1.1 (mapOfCalls.run {}).1.2).runIn mapOfCalls.env {} =
          (.ok (.atom (mapText (entriesOf (runs.map PartRun.text)) (.basic .string) (.basic .int))),
            s') ∧
        RunInTurn mapOfCalls.env {} ((mapOfCalls.run {}).1.2.flatMap
          (entryParts (within 9) (.basic .string) (.basic .int))) runs s' ∧
        mapText (entriesOf (runs.map PartRun.text)) (.basic .string) (.basic .int) =
          "_gi_NewMap(\"string\", \"int\", \x7b[\"a\"]=g(), [\"b\"]=_r0\x7d)" ∧
        s'.pending.map Statement.text = ["_r0 = h() --[[resume:0]]"] ∧
        ((unmovedOccurrences runs).Pairwise Occurrence.Before ↔
          runs.Pairwise fun earlier later => isSimple earlier.text = false → later.left = []) := by
  have hok : ((composite (within 9) (mapOfCalls.run {}).1.1 (mapOfCalls.run {}).1.2).runIn
      mapOfCalls.env {}).1.isOk := by decide +kernel
  obtain ⟨f, s', hrun⟩ := LowerM.exists_runIn_eq_ok hok
  have htype : mapOfCalls.env.type? {} (mapOfCalls.run {}).1.1.id =
      some (.map (.basic .string) (.basic .int)) := by decide +kernel
  have htext : ((composite (within 9) (mapOfCalls.run {}).1.1 (mapOfCalls.run {}).1.2).runIn
      mapOfCalls.env {}).1.toOption.map Fragment.text =
        some "_gi_NewMap(\"string\", \"int\", \x7b[\"a\"]=g(), [\"b\"]=_r0\x7d)" := by decide +kernel
  have hpending : ((composite (within 9) (mapOfCalls.run {}).1.1 (mapOfCalls.run {}).1.2).runIn
      mapOfCalls.env {}).2.pending.map Statement.text = ["_r0 = h() --[[resume:0]]"] := by
    decide +kernel
  rw [hrun] at htext hpending
  obtain ⟨runs, hturn, rfl, -, horder⟩ := composite_unmoved htype (.map rfl) hrun
  exact ⟨s', runs, hrun, hturn, Option.some.inj htext, hpending, horder⟩

/-- `main.Pair{g(), h()}`, where `h` may suspend. -/
def pairOfCalls : Build Expr := do
  let (first, second) ← twoCalls
  let fields := [⟨"A", .basic .int, false, none⟩, ⟨"B", .basic .int, false, none⟩]
  let n ← Build.node (.named "main.Pair" (.struct fields))
  return .compositeLit n [⟨none, first⟩, ⟨none, second⟩]

/-- The call of `g` has effects, and stays behind that of `h`. -/
theorem pairOfCalls_overtaken :
    ((lower (pairOfCalls.run {}).1 none).runIn pairOfCalls.env {}).1.toOption =
        some (.atom "__reg:NewInstance(\"main.Pair\", \x7b[\"A\"]=g(), [\"B\"]=_r0\x7d)") ∧
      ((lower (pairOfCalls.run {}).1 none).runIn pairOfCalls.env {}).2.pending.map Statement.text =
        ["_r0 = h() --[[resume:0]]"] ∧
      isSimple "g()" = false := by
  decide +kernel

end

end GoLua.Lower
