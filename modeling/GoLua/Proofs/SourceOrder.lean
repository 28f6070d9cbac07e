import GoLua.Proofs.Order

/-!
# Source order

The parts of a sequence are lowered from left to right, but their texts do not stay where they are.
A part may leave statements, which run before any text that is still written where it stands; so the
texts before it are moved into temporaries, late, and in front of statements that are there already.
This module says what comes of it: read from the first statement to the last and then on through the
texts, everything is evaluated in source order (`InSourceOrder`).

At any time the parts so far fall into two groups. The *settled* ones come first: a settled text is
simple, or has been moved. The *open* ones are still as they were lowered, and of these only the first
one may have left statements (`Sequenced`). So the statements of the settled parts can be read part by
part, and the moves of the open ones come where they belong when they come at the end. Adding a part
keeps this (`Sequenced.add`), and so does moving the texts that are open (`Sequenced.move`).
-/

namespace GoLua.Lower

/-! ### What becomes of a part -/

/-- What lowering a part has come to: its text, the statements that it left, and the numbers of the
names that it minted, from `firstName` up to `nextName`. -/
structure PartRun where
  text : String
  left : List Statement
  firstName : Nat
  nextName : Nat

/-- A part, and the number of the temporary that its text has been moved into, if it has. -/
structure PlacedPart extends PartRun where
  temporary : Option Nat

namespace PlacedPart

/-- What is written in the place of the part. -/
def written (hint : String) (part : PlacedPart) : String :=
  match part.temporary with
  | some n => hint ++ toString n
  | none => part.text

/-- The assignment that moves the text of the part. -/
def move (hint : String) (part : PlacedPart) : List Statement :=
  match part.temporary with
  | some n => [.assign (hint ++ toString n) part.text]
  | none => []

/-- The statements of the part: those that it left, and then its move. -/
def statements (hint : String) (part : PlacedPart) : List Statement :=
  part.left ++ part.move hint

end PlacedPart

/-- A part whose text is written where it stands. -/
def PartRun.inline (part : PartRun) : PlacedPart :=
  { part with temporary := none }

/-- **Lowering in turn.** The parts of a sequence are lowered one after the other, each in the state
that the part before it was added in. -/
inductive LoweredInTurn (env : Env) (hint : String) :
    Parts → FunctionState → List (LowerM String) → List PartRun → Parts → FunctionState → Prop
  | nil {parts : Parts} {s : FunctionState} : LoweredInTurn env hint parts s [] [] parts s
  | cons {parts parts₁ parts' : Parts} {s s₁ s₂ s' : FunctionState} {m : LowerM String}
      {rest : List (LowerM String)} {text : String} {left : List Statement} {runs : List PartRun}
      (lowered : m.runIn env s = (.ok text, s₁)) (added : s₁.pending = s.pending ++ left)
      (add : (parts.add hint m).runIn env s = (.ok parts₁, s₂))
      (later : LoweredInTurn env hint parts₁ s₂ rest runs parts' s') :
      LoweredInTurn env hint parts s (m :: rest) (⟨text, left, s.nextName, s₁.nextName⟩ :: runs)
        parts' s'

/-- Every part has its run. -/
theorem LoweredInTurn.length_eq {env : Env} {hint : String} {parts parts' : Parts}
    {s s' : FunctionState} {ms : List (LowerM String)} {runs : List PartRun}
    (h : LoweredInTurn env hint parts s ms runs parts' s') : runs.length = ms.length := by
  induction h with
  | nil => rfl
  | cons _ _ _ _ ih => exact congrArg Nat.succ ih

/-! ### The order of evaluation -/

/-- What is evaluated of a part: the statements that it left, and its text. -/
inductive Occurrence where
  | left (part : Nat)
  | text (part : Nat)
deriving DecidableEq

/-- Source order. A part leaves its statements before its text is evaluated, and the text is evaluated
before the next part leaves anything. -/
def Occurrence.Before : Occurrence → Occurrence → Prop
  | .left i, .left j => i ≤ j
  | .left i, .text j => i ≤ j
  | .text i, .left j => i < j
  | .text i, .text j => i < j

/-- The statements of a part, each with what it evaluates. -/
def PlacedPart.occurrences (hint : String) (part : PlacedPart) (i : Nat) :
    List (Occurrence × Statement) :=
  part.left.map (Occurrence.left i, ·) ++ (part.move hint).map (Occurrence.text i, ·)

/-- The statements of several parts, each with what it evaluates. -/
def movedOccurrences (hint : String) (parts : List PlacedPart) : List (Occurrence × Statement) :=
  parts.zipIdx.flatMap fun p => p.1.occurrences hint p.2

/-- The texts that are evaluated where they stand, from the first place to the last. What is simple
evaluates to the same everywhere; what stands in no part's place is not one of the texts. -/
def inlineOccurrences (places : List Nat) (written : List String) : List Occurrence :=
  written.zipIdx.filterMap fun p =>
    if isSimple p.1 then none else (places.idxOf? p.2).map Occurrence.text

/-- The numbers of the temporaries are new: they ascend, start at `lo` and end before `hi`, and no
part has minted a name with one of them. -/
structure NewNumbers (lo hi : Nat) (runs : List PartRun) (numbers : List Nat) : Prop where
  ascending : numbers.Pairwise (· < ·)
  bounds : ∀ n ∈ numbers, lo ≤ n ∧ n < hi
  apart : ∀ n ∈ numbers, ∀ run ∈ runs, n < run.firstName ∨ run.nextName ≤ n

/-- **In source order.** The parts come to `written`, where `places` says in which place each of them
stands. -/
structure InSourceOrder (hint : String) (lo hi : Nat) (parts : List PlacedPart) (places : List Nat)
    (written : List String) : Prop where
  /-- Every part is written in its place: its text, or the temporary for it. -/
  inPlace : ∀ (i : Nat) (part : PlacedPart) (place : Nat), parts[i]? = some part →
    places[i]? = some place → written[place]? = some (part.written hint)
  /-- What is simple is not moved. -/
  simple : ∀ part ∈ parts, isSimple part.text → part.temporary = none
  fresh : NewNumbers lo hi (parts.map PlacedPart.toPartRun) (parts.filterMap PlacedPart.temporary)
  /-- Every text that is not simple is evaluated once, in its move or where it stands. -/
  once : ∀ (i : Nat) (part : PlacedPart), parts[i]? = some part → isSimple part.text = false →
    ((movedOccurrences hint parts).map Prod.fst ++ inlineOccurrences places written).count
      (.text i) = 1
  /-- The statements, and then the texts in their places, are in source order. -/
  order : ((movedOccurrences hint parts).map Prod.fst ++
    inlineOccurrences places written).Pairwise Occurrence.Before

/-! ### Occurrences -/

namespace Occurrence

/-- The part of which it is an occurrence. -/
def part : Occurrence → Nat
  | .left i => i
  | .text i => i

/-- Whatever is evaluated of a part comes before whatever is evaluated of a later one. -/
theorem before_of_lt {a b : Occurrence} (h : a.part < b.part) : a.Before b := by
  cases a <;> cases b <;> simp only [part, Before] at * <;> omega

/-- In source order no text comes twice. -/
theorem count_text_le_one {l : List Occurrence} (h : l.Pairwise Before) (i : Nat) :
    l.count (.text i) ≤ 1 := by
  by_contra htwice
  have hsub : [text i, text i].Sublist l :=
    List.replicate_sublist_iff.mpr (Nat.lt_of_not_le htwice)
  have hbefore : (text i).Before (text i) :=
    List.rel_of_pairwise_cons (h.sublist hsub) (List.mem_singleton.mpr rfl)
  exact Nat.lt_irrefl i hbefore

end Occurrence

section

variable {hint : String} {parts : List PlacedPart} {o : Occurrence}

/-- A part occurs by what it left, if it left anything, and by its temporary, if it has one. -/
theorem fst_mem_occurrences {part : PlacedPart} {i : Nat} :
    o ∈ (part.occurrences hint i).map Prod.fst ↔
      o = .left i ∧ part.left ≠ [] ∨ o = .text i ∧ part.temporary ≠ none := by
  unfold PlacedPart.occurrences PlacedPart.move
  cases part.temporary <;>
    simp [List.eq_nil_iff_forall_not_mem, and_comm, eq_comm (a := o)]

/-- The occurrences of a part are those of its statements. -/
theorem map_snd_occurrences (part : PlacedPart) (i : Nat) :
    (part.occurrences hint i).map Prod.snd = part.statements hint := by
  simp [PlacedPart.occurrences, PlacedPart.statements, Function.comp_def]

/-- The statements are those of the parts, part by part. -/
theorem map_snd_movedOccurrences (parts : List PlacedPart) :
    (movedOccurrences hint parts).map Prod.snd = parts.flatMap (PlacedPart.statements hint) := by
  rw [movedOccurrences, List.map_flatMap]
  simp only [map_snd_occurrences]
  rw [← List.flatMap_map Prod.fst, List.zipIdx_map_fst]

/-- What occurs among the statements of all parts is what some part left, or the move of some part.
-/
theorem fst_mem_movedOccurrences :
    o ∈ (movedOccurrences hint parts).map Prod.fst ↔
      ∃ i part, parts[i]? = some part ∧
        (o = .left i ∧ part.left ≠ [] ∨ o = .text i ∧ part.temporary ≠ none) := by
  rw [movedOccurrences, List.map_flatMap, List.mem_flatMap]
  constructor
  · rintro ⟨⟨part, i⟩, hmem, ho⟩
    exact ⟨i, part, List.mem_zipIdx_iff_getElem?.mp hmem, fst_mem_occurrences.mp ho⟩
  · rintro ⟨i, part, hpart, ho⟩
    exact ⟨(part, i), List.mem_zipIdx_iff_getElem?.mpr hpart, fst_mem_occurrences.mpr ho⟩

/-- Part by part is in source order. -/
theorem movedOccurrences_pairwise (parts : List PlacedPart) :
    ((movedOccurrences hint parts).map Prod.fst).Pairwise Occurrence.Before := by
  rw [movedOccurrences, List.map_flatMap, List.pairwise_flatMap]
  constructor
  -- Within one part: what it left, then its move.
  · rintro ⟨part, i⟩ -
    have hleft : (part.left.map fun _ => Occurrence.left i).Pairwise Occurrence.Before :=
      List.pairwise_map.mpr (List.pairwise_of_forall fun _ _ => Nat.le_refl i)
    unfold PlacedPart.occurrences PlacedPart.move
    cases part.temporary with
    | none => simpa [Function.comp_def] using hleft
    | some n =>
      simp only [List.map_append, List.map_map, List.map_cons, List.map_nil]
      refine List.pairwise_append.mpr ⟨hleft, List.pairwise_singleton _ _, fun a ha b hb => ?_⟩
      obtain ⟨stmt, -, rfl⟩ := List.mem_map.mp ha
      obtain rfl := List.mem_singleton.mp hb
      exact Nat.le_refl i
  -- Of two parts the earlier one occurs first, because occurrences carry the number of their part.
  · have hindices : (parts.zipIdx.map Prod.snd).Pairwise (· < ·) := by
      rw [List.zipIdx_map_snd]
      exact List.pairwise_lt_range'
    refine (List.pairwise_map.mp hindices).imp fun {p q} hlt a ha b hb => ?_
    have hpart {o : Occurrence} {p : PlacedPart × Nat}
        (ho : o ∈ (p.1.occurrences hint p.2).map Prod.fst) : o.part = p.2 := by
      rcases fst_mem_occurrences.mp ho with ⟨rfl, -⟩ | ⟨rfl, -⟩ <;> rfl
    exact Occurrence.before_of_lt (by rw [hpart ha, hpart hb]; exact hlt)

/-! ### Texts in places -/

/-- Each text is written in a place of its own. -/
structure InPlaces (places : List Nat) (texts written : List String) : Prop where
  length : places.length = texts.length
  nodup : places.Nodup
  getElem? : ∀ (i : Nat) (text : String) (place : Nat), texts[i]? = some text →
    places[i]? = some place → written[place]? = some text

namespace InPlaces

variable {places : List Nat} {texts written : List String}

/-- In the place of a text, that text is written. -/
theorem text_of_idxOf? (h : InPlaces places texts written) {i place : Nat} {text : String}
    (hi : places.idxOf? place = some i) (hwritten : written[place]? = some text) :
    places[i]? = some place ∧ texts[i]? = some text := by
  obtain ⟨hlt, rfl, -⟩ := List.idxOf?_eq_some_iff.mp hi
  have hplace := List.getElem?_eq_getElem hlt
  obtain ⟨own, htext⟩ : ∃ own, texts[i]? = some own :=
    ⟨_, List.getElem?_eq_getElem (h.length ▸ hlt)⟩
  exact ⟨hplace, by rw [← hwritten, h.getElem? i _ _ htext hplace, htext]⟩

/-- A place is the place of one text only. -/
theorem idxOf?_of_getElem? (h : InPlaces places texts written) {i place : Nat}
    (hplace : places[i]? = some place) : places.idxOf? place = some i := by
  obtain ⟨hlt, rfl⟩ := List.getElem?_eq_some_iff.mp hplace
  refine List.idxOf?_eq_some_iff.mpr ⟨hlt, rfl, fun j hj heq => ?_⟩
  exact Nat.ne_of_lt hj (h.nodup.getElem_inj_iff.mp heq)

/-- The texts that are evaluated where they stand are those that are not simple. -/
theorem mem_inlineOccurrences (h : InPlaces places texts written) :
    o ∈ inlineOccurrences places written ↔
      ∃ i text, o = .text i ∧ texts[i]? = some text ∧ isSimple text = false := by
  unfold inlineOccurrences
  rw [List.mem_filterMap]
  constructor
  -- An inline text has an index among the places, and is not simple.
  · rintro ⟨⟨text, place⟩, hmem, ho⟩
    split at ho
    · cases ho
    · next hsimple =>
      obtain ⟨i, hi, rfl⟩ := Option.map_eq_some_iff.mp ho
      have htext := (h.text_of_idxOf? hi (List.mem_zipIdx_iff_getElem?.mp hmem)).2
      exact ⟨i, text, rfl, htext, Bool.eq_false_iff.mpr hsimple⟩
  -- And a text that is not simple is written in its place.
  · rintro ⟨i, text, rfl, htext, hsimple⟩
    have hlt : i < places.length := h.length ▸ (List.getElem?_eq_some_iff.mp htext).1
    have hplace := List.getElem?_eq_getElem hlt
    refine ⟨(text, places[i]),
      List.mem_zipIdx_iff_getElem?.mpr (h.getElem? i text _ htext hplace), ?_⟩
    rw [if_neg (Bool.eq_false_iff.mp hsimple), h.idxOf?_of_getElem? hplace]
    rfl

/-- The texts are in source order if the places of those that are not simple ascend. -/
theorem inlineOccurrences_pairwise (h : InPlaces places texts written)
    (hascending : (((places.zip texts).filter fun p => !isSimple p.2).map Prod.fst).Pairwise
      (· < ·)) : (inlineOccurrences places written).Pairwise Occurrence.Before := by
  rw [List.pairwise_map, List.pairwise_filter] at hascending
  -- Texts that are not simple are written in the order of their places, so two of them compare as
  -- their places do.
  have hplaces {i j p q : Nat} {t u : String} (hij : i < j) (hp : places[i]? = some p)
      (hq : places[j]? = some q) (ht : texts[i]? = some t) (hu : texts[j]? = some u)
      (hts : isSimple t = false) (hus : isSimple u = false) : p < q := by
    obtain ⟨hi, hpi⟩ := List.getElem?_eq_some_iff.mp
      (List.getElem?_zip_eq_some (z := (p, t)) |>.mpr ⟨hp, ht⟩)
    obtain ⟨hj, hqj⟩ := List.getElem?_eq_some_iff.mp
      (List.getElem?_zip_eq_some (z := (q, u)) |>.mpr ⟨hq, hu⟩)
    have hlt := List.pairwise_iff_getElem.mp hascending i j hi hj hij
    rw [hpi, hqj, hts, hus] at hlt
    exact hlt rfl rfl
  have hindices : (written.zipIdx.map Prod.snd).Pairwise (· < ·) := by
    rw [List.zipIdx_map_snd]
    exact List.pairwise_lt_range'
  unfold inlineOccurrences
  rw [List.pairwise_filterMap]
  refine ((List.pairwise_map.mp hindices).imp_of_mem ?_)
  rintro ⟨t, p⟩ ⟨u, q⟩ hmem hmem' hpq a ha b hb
  split at ha
  · cases ha
  split at hb
  · cases hb
  next hts hus =>
  obtain ⟨i, hi, rfl⟩ := Option.map_eq_some_iff.mp ha
  obtain ⟨j, hj, rfl⟩ := Option.map_eq_some_iff.mp hb
  obtain ⟨hp, ht⟩ := h.text_of_idxOf? hi (List.mem_zipIdx_iff_getElem?.mp hmem)
  obtain ⟨hq, hu⟩ := h.text_of_idxOf? hj (List.mem_zipIdx_iff_getElem?.mp hmem')
  change i < j
  -- The places ascend, so the texts cannot be the other way round, nor the same.
  rcases Nat.lt_trichotomy i j with hij | rfl | hji
  · exact hij
  · exact absurd (Option.some.inj (hp.symm.trans hq)) (Nat.ne_of_lt hpq)
  · have := hplaces hji hq hp hu ht (Bool.eq_false_iff.mpr hus) (Bool.eq_false_iff.mpr hts)
    exact absurd this (Nat.lt_asymm hpq)

/-- Texts that stand in their own order. -/
theorem range (texts : List String) : InPlaces (List.range texts.length) texts texts where
  length := List.length_range
  nodup := List.nodup_range
  getElem? i text place htext hplace := by
    obtain ⟨_, rfl⟩ := List.getElem?_eq_some_iff.mp hplace
    rwa [List.getElem_range]

/-- Places that are counted from zero ascend, whichever of their texts are left out. -/
theorem range_ascending (texts : List String) :
    ((((List.range texts.length).zip texts).filter fun p => !isSimple p.2).map Prod.fst).Pairwise
      (· < ·) := by
  have hplaces : ((List.range texts.length).zip texts).map Prod.fst = List.range texts.length :=
    List.map_fst_zip (Nat.le_of_eq List.length_range)
  have hindices : (List.range texts.length).Pairwise (· < ·) := List.pairwise_lt_range
  rw [← hplaces] at hindices
  exact hindices.sublist (List.filter_sublist.map _)

end InPlaces

end

/-! ### Moving -/

section Move

variable {env : Env} {s s' : FunctionState} {hint : String}

/-- How open parts are settled: those that are not simple get temporaries, in their order. -/
structure Settles (hint : String) (s s' : FunctionState) (opened : List PartRun)
    (settled : List PlacedPart) (texts : List String) : Prop where
  runs : settled.map PlacedPart.toPartRun = opened
  texts : texts = settled.map (PlacedPart.written hint)
  pending : s'.pending = s.pending ++ settled.flatMap (PlacedPart.move hint)
  moved : ∀ part ∈ settled, part.temporary = none ↔ isSimple part.text
  names : s.nextName ≤ s'.nextName
  ascending : (settled.filterMap PlacedPart.temporary).Pairwise (· < ·)
  bounds : ∀ n ∈ settled.filterMap PlacedPart.temporary, s.nextName ≤ n ∧ n < s'.nextName

/-- Moving the open texts settles all open parts: a simple text stays, and any other one gets the
next name. -/
theorem moveToTemporaries_settles {opened : List PartRun} {texts : List String}
    (h : (moveToTemporaries hint (opened.map PartRun.text)).runIn env s = (.ok texts, s')) :
    ∃ settled, Settles hint s s' opened settled texts := by
  induction opened generalizing s texts with
  | nil =>
    obtain ⟨rfl, rfl⟩ := LowerM.runIn_pure_eq_ok h
    exact ⟨[], rfl, rfl, (List.append_nil _).symm, by simp, Nat.le_refl _, .nil, by simp⟩
  | cons run opened ih =>
    rw [List.map_cons, moveToTemporaries] at h
    split at h
    -- A simple text stays where it is, and no name is minted.
    · next hsimple =>
      obtain ⟨rest, hrest, rfl⟩ := LowerM.runIn_map_eq_ok h
      obtain ⟨settled, hs⟩ := ih hrest
      refine ⟨run.inline :: settled, congrArg (run :: ·) hs.runs, congrArg (run.text :: ·) hs.texts,
        hs.pending, List.forall_mem_cons.mpr ⟨?_, hs.moved⟩, hs.names, hs.ascending, hs.bounds⟩
      exact iff_of_true rfl hsimple
    -- Any other text is assigned to a name, before the names of the texts behind it are minted.
    · next hsimple =>
      rw [LowerM.runIn_bind_ok (runIn_keepInTemporary env s hint run.text)] at h
      obtain ⟨rest, hrest, rfl⟩ := LowerM.runIn_map_eq_ok h
      obtain ⟨settled, hs⟩ := ih hrest
      have hnames : s.nextName + 1 ≤ s'.nextName := hs.names
      have hbounds : ∀ n ∈ settled.filterMap PlacedPart.temporary,
          s.nextName + 1 ≤ n ∧ n < s'.nextName := hs.bounds
      refine ⟨⟨run, some s.nextName⟩ :: settled, congrArg (run :: ·) hs.runs,
        congrArg ((hint ++ toString s.nextName) :: ·) hs.texts, ?_,
        List.forall_mem_cons.mpr ⟨iff_of_false (by simp) hsimple, hs.moved⟩, by omega,
        List.pairwise_cons.mpr ⟨fun n hn => (hbounds n hn).1, hs.ascending⟩,
        List.forall_mem_cons.mpr ⟨⟨Nat.le_refl _, hnames⟩, fun n hn => ?_⟩⟩
      · rw [hs.pending]
        exact List.append_assoc _ _ _
      · exact ⟨by have := (hbounds n hn).1; omega, (hbounds n hn).2⟩

end Move

/-! ### Settled and open parts -/

section Sequenced

variable {env : Env} {s₀ s s₁ s₂ s' : FunctionState} {hint : String}
  {settled : List PlacedPart} {opened : List PartRun} {parts parts' : Parts}

/-- **The parts so far.** A settled part is simple or has been moved. An open one is as it was lowered,
and only the first one may have left statements. -/
structure Sequenced (hint : String) (s₀ s : FunctionState) (settled : List PlacedPart)
    (opened : List PartRun) (parts : Parts) : Prop where
  texts : parts.texts = settled.map (PlacedPart.written hint) ++ opened.map PartRun.text
  moved : parts.moved = settled.length
  pending : s.pending = s₀.pending ++ (settled.flatMap (PlacedPart.statements hint) ++
    opened.flatMap PartRun.left)
  decided : ∀ part ∈ settled, part.temporary = none ↔ isSimple part.text
  quiet : ∀ run ∈ opened.tail, run.left = []
  names : s₀.nextName ≤ s.nextName
  minted : ∀ run ∈ settled.map PlacedPart.toPartRun ++ opened, run.nextName ≤ s.nextName
  fresh : NewNumbers s₀.nextName s.nextName (settled.map PlacedPart.toPartRun ++ opened)
    (settled.filterMap PlacedPart.temporary)

namespace NewNumbers

variable {lo mid hi : Nat} {runs : List PartRun} {numbers new : List Nat}

/-- Nothing is numbered at the start. -/
theorem nil : NewNumbers lo hi runs [] :=
  ⟨.nil, by simp, by simp⟩

/-- Numbers that come after all that has been minted are new. -/
theorem append (h : NewNumbers lo mid runs numbers) (hminted : ∀ run ∈ runs, run.nextName ≤ mid)
    (hlo : lo ≤ mid) (hhi : mid ≤ hi) (hnew : new.Pairwise (· < ·))
    (hbounds : ∀ n ∈ new, mid ≤ n ∧ n < hi) : NewNumbers lo hi runs (numbers ++ new) where
  ascending := by
    -- New names come after all names so far, since minting only counts upwards.
    refine List.pairwise_append.mpr ⟨h.ascending, hnew, fun m hm n hn => ?_⟩
    have := (h.bounds m hm).2
    have := (hbounds n hn).1
    omega
  bounds n hn := by
    rcases List.mem_append.mp hn with hn | hn
    · have := h.bounds n hn
      omega
    · have := hbounds n hn
      omega
  apart n hn run hrun := by
    -- A run that came before cannot have minted a name that is new now.
    rcases List.mem_append.mp hn with hn | hn
    · exact h.apart n hn run hrun
    · exact .inr (Nat.le_trans (hminted run hrun) (hbounds n hn).1)

/-- The numbers are those of no part that has minted other ones. -/
theorem add {run : PartRun} (h : NewNumbers lo mid runs numbers)
    (hapart : ∀ n ∈ numbers, n < run.firstName ∨ run.nextName ≤ n) (hhi : mid ≤ hi) :
    NewNumbers lo hi (runs ++ [run]) numbers where
  ascending := h.ascending
  bounds n hn := ⟨(h.bounds n hn).1, Nat.lt_of_lt_of_le (h.bounds n hn).2 hhi⟩
  apart n hn other hother := by
    rcases List.mem_append.mp hother with hother | hother
    · exact h.apart n hn other hother
    · obtain rfl := List.mem_singleton.mp hother
      exact hapart n hn

end NewNumbers

/-- Where only the first part has left statements, its moves and those of the parts after it can be
read part by part. -/
theorem flatMap_statements {parts : List PlacedPart} (h : ∀ part ∈ parts.tail, part.left = []) :
    parts.flatMap (PlacedPart.statements hint) =
      (parts.map PlacedPart.toPartRun).flatMap PartRun.left ++
        parts.flatMap (PlacedPart.move hint) := by
  cases parts with
  | nil => rfl
  | cons part parts =>
    -- Only the first of the moved parts left statements; the others were moved before they could.
    have hquiet : ∀ part ∈ parts, part.left = [] := h
    have hleft : (parts.map PlacedPart.toPartRun).flatMap PartRun.left = [] := by
      rw [List.flatMap_map, List.flatMap_eq_nil_iff]
      exact hquiet
    have hmoves : parts.flatMap (PlacedPart.statements hint) =
        parts.flatMap (PlacedPart.move hint) :=
      List.flatMap_congr fun part hpart => by rw [PlacedPart.statements, hquiet part hpart]; rfl
    simp only [List.flatMap_cons, List.map_cons, hleft, hmoves, PlacedPart.statements,
      List.append_nil, List.append_assoc]

/-- Before the first part nothing is settled and nothing is open. -/
theorem sequenced_empty (s : FunctionState) : Sequenced hint s s [] [] {} :=
  ⟨rfl, rfl, by simp, by simp, by simp, Nat.le_refl _, by simp, .nil⟩

namespace Sequenced

/-- **Moving settles what is open.** -/
theorem move (h : Sequenced hint s₀ s settled opened parts)
    (hrun : (parts.move hint).runIn env s = (.ok parts', s')) :
    ∃ new, new.map PlacedPart.toPartRun = opened ∧ s.nextName ≤ s'.nextName ∧
      (∀ n ∈ new.filterMap PlacedPart.temporary, s.nextName ≤ n) ∧
      Sequenced hint s₀ s' (settled ++ new) [] parts' := by
  obtain ⟨texts, hmoves, rfl⟩ := LowerM.runIn_map_eq_ok hrun
  have hlength : (settled.map (PlacedPart.written hint)).length = parts.moved := by
    rw [List.length_map, h.moved]
  -- What the moves work on are the texts of the open parts, and what stays are those of the settled
  -- ones.
  have hopen : parts.open = opened.map PartRun.text := by
    rw [Parts.open, h.texts, List.drop_append_of_le_length (Nat.le_of_eq hlength.symm),
      List.drop_of_length_le (Nat.le_of_eq hlength), List.nil_append]
  have htake : parts.texts.take parts.moved = settled.map (PlacedPart.written hint) := by
    rw [h.texts, ← hlength, List.take_left]
  rw [hopen] at hmoves
  obtain ⟨new, hnew⟩ := moveToTemporaries_settles hmoves
  have hruns : (settled ++ new).map PlacedPart.toPartRun ++ [] =
      settled.map PlacedPart.toPartRun ++ opened := by
    rw [List.append_nil, List.map_append, hnew.runs]
  -- No open part but the first has left statements, so their moves come in one piece.
  have hquiet : ∀ part ∈ new.tail, part.left = [] := fun part hpart =>
    h.quiet part.toPartRun (by rw [← hnew.runs, ← List.map_tail]; exact List.mem_map_of_mem hpart)
  refine ⟨new, hnew.runs, hnew.names, fun n hn => (hnew.bounds n hn).1,
    ⟨?_, ?_, ?_, ?_, by simp, Nat.le_trans h.names hnew.names, ?_, ?_⟩⟩
  · change parts.texts.take parts.moved ++ texts = _
    rw [htake, hnew.texts, List.map_append, List.map_nil, List.append_nil]
  · change parts.texts.length = _
    rw [h.texts, List.length_append, List.length_append, List.length_map, List.length_map,
      ← hnew.runs, List.length_map]
  · rw [hnew.pending, h.pending, List.flatMap_append, flatMap_statements hquiet, hnew.runs]
    simp only [List.flatMap_nil, List.append_nil, List.append_assoc]
  · exact fun part hpart => (List.mem_append.mp hpart).elim (h.decided part) (hnew.moved part)
  · rw [hruns]
    exact fun run hrun => Nat.le_trans (h.minted run hrun) hnew.names
  · rw [hruns, List.filterMap_append]
    exact h.fresh.append h.minted h.names hnew.names hnew.ascending hnew.bounds

/-- The next part is open. If it left statements, there is no other open part. -/
theorem push {run : PartRun} (h : Sequenced hint s₀ s settled opened parts)
    (hapart : ∀ n ∈ settled.filterMap PlacedPart.temporary, n < run.firstName ∨ run.nextName ≤ n)
    (hnext : run.nextName ≤ s'.nextName) (hnames : s.nextName ≤ s'.nextName)
    (hpending : s'.pending = s.pending ++ run.left) (hquiet : opened = [] ∨ run.left = []) :
    Sequenced hint s₀ s' settled (opened ++ [run])
      { parts with texts := parts.texts ++ [run.text] } where
  texts := by
    change parts.texts ++ [run.text] = _
    rw [h.texts, List.map_append, List.append_assoc]
    rfl
  moved := h.moved
  pending := by
    rw [hpending, h.pending, List.flatMap_append, List.flatMap_singleton]
    simp only [List.append_assoc]
  decided := h.decided
  quiet other hother := by
    -- The part that is added left nothing, or it is the only open one.
    rcases hquiet with rfl | hquiet
    · cases hother
    · cases opened with
      | nil => cases hother
      | cons _ opened =>
        rcases List.mem_append.mp hother with hother | hother
        · exact h.quiet other hother
        · obtain rfl := List.mem_singleton.mp hother
          exact hquiet
  names := Nat.le_trans h.names hnames
  minted other hother := by
    rw [← List.append_assoc] at hother
    rcases List.mem_append.mp hother with hother | hother
    · exact Nat.le_trans (h.minted other hother) hnames
    · obtain rfl := List.mem_singleton.mp hother
      exact hnext
  fresh := by
    rw [← List.append_assoc]
    exact h.fresh.add hapart hnames

/-- Nothing changes for the parts so far when only names have been minted. -/
theorem later (h : Sequenced hint s₀ s settled opened parts) (hpending : s₁.pending = s.pending)
    (hnames : s.nextName ≤ s₁.nextName) : Sequenced hint s₀ s₁ settled opened parts where
  texts := h.texts
  moved := h.moved
  pending := hpending.trans h.pending
  decided := h.decided
  quiet := h.quiet
  names := Nat.le_trans h.names hnames
  minted run hrun := Nat.le_trans (h.minted run hrun) hnames
  fresh := ⟨h.fresh.ascending,
    fun n hn => ⟨(h.fresh.bounds n hn).1, Nat.lt_of_lt_of_le (h.fresh.bounds n hn).2 hnames⟩,
    h.fresh.apart⟩

/-- **Adding a part.** A part that left nothing is open behind the others. One that left statements
settles them, and is the only open part. -/
theorem add {m : LowerM String} {text : String} {left : List Statement}
    (h : Sequenced hint s₀ s settled opened parts) (hm : m.runIn env s = (.ok text, s₁))
    (hleft : s₁.pending = s.pending ++ left) (hnames : s.nextName ≤ s₁.nextName)
    (hadd : (parts.add hint m).runIn env s = (.ok parts', s')) :
    ∃ settled' opened', Sequenced hint s₀ s' settled' opened' parts' ∧
      settled'.map PlacedPart.toPartRun ++ opened' =
        settled.map PlacedPart.toPartRun ++ opened ++ [⟨text, left, s.nextName, s₁.nextName⟩] := by
  have hold : ∀ n ∈ settled.filterMap PlacedPart.temporary, n < s.nextName := fun n hn =>
    (h.fresh.bounds n hn).2
  by_cases hquiet : s₁.pending.length = s.pending.length
  -- The part left nothing: it stays open, as the parts before it do.
  · rw [runIn_add_quiet hm hquiet] at hadd
    obtain ⟨hparts, rfl⟩ := Prod.mk.inj hadd
    obtain rfl := Except.ok.inj hparts
    have hnothing : left = [] := by
      rw [hleft, List.length_append] at hquiet
      exact List.length_eq_zero_iff.mp (by omega)
    refine ⟨settled, opened ++ [⟨text, left, s.nextName, s₁.nextName⟩], ?_,
      (List.append_assoc _ _ _).symm⟩
    exact h.push (fun n hn => .inl (hold n hn)) (Nat.le_refl _) hnames hleft (.inr hnothing)
  · -- The moves are made in the state that the part left, with its statements cut off.
    obtain ⟨moved, s₂, hmove⟩ := exists_runIn_move env (s₁.splitAt s.pending.length).2 hint parts
    rw [runIn_add_moved hm hquiet hmove] at hadd
    obtain ⟨hparts, rfl⟩ := Prod.mk.inj hadd
    obtain rfl := Except.ok.inj hparts
    rw [s₁.splitAt_of_append hleft] at hmove ⊢
    have hcut : Sequenced hint s₀ { s₁ with pending := s.pending } settled opened parts :=
      h.later rfl hnames
    obtain ⟨new, hruns, hgrown, hnew, hmoved⟩ := hcut.move hmove
    refine ⟨settled ++ new, [⟨text, left, s.nextName, s₁.nextName⟩], ?_, ?_⟩
    · refine hmoved.push (fun n hn => ?_) hgrown (Nat.le_refl _) rfl (.inl rfl)
      rw [List.filterMap_append] at hn
      exact (List.mem_append.mp hn).imp (hold n) (hnew n)
    · rw [List.map_append, hruns]

end Sequenced

/-- A computation that takes back no names and no statements. -/
def Grows {α : Type} (m : LowerM α) : Prop :=
  ∀ env s a s', m.runIn env s = (.ok a, s') →
    s.nextName ≤ s'.nextName ∧ s.pending <+: s'.pending

/-- What is built from lowering takes nothing back. -/
theorem grows_of_built {α : Type} {n : Nat} {m : LowerM α} {w : Prices → Nat} (h : ∀ p : Prices,
    Builds ⟨within n, p, fun _ => True⟩ (fun _ => True) (w p) m) : Grows m := by
  intro env s a s' hrun
  have hbuilt := h (freePrices env s)
  have hself := (extending (freePrices env s)).holds_within n
  have hkept := RunLaw.holds_of_built hself hbuilt env s (ready_freePrices env s) _ s' hrun
  exact ⟨hkept.steady.names, hkept.rel.pending⟩

/-- The text of a value that is converted to a type. -/
def valueText (self : Lowering) (type : GoType) (value : Expr) : LowerM String :=
  Fragment.text <$> implicitCopy self value type

theorem grows_valueText (n : Nat) (type : GoType) (value : Expr) :
    Grows (valueText (within n) type value) :=
  grows_of_built fun p => by
    have hfits := RunLaw.fits_of_forall ⟨within n, p, fun _ => True⟩ (fun _ => trivial) value
    exact (Built.implicitCopy hfits type).map Fragment.text fun _ _ => trivial

/-- **Sequences keep the groups.** All parts are settled or open, in the order in which they were
lowered. -/
theorem Sequenced.inSequence {ms : List (LowerM String)} (hms : ∀ m ∈ ms, Grows m)
    (h : Sequenced hint s₀ s settled opened parts)
    (hrun : (inSequence hint parts ms).runIn env s = (.ok parts', s')) :
    ∃ runs settled' opened', LoweredInTurn env hint parts s ms runs parts' s' ∧
      Sequenced hint s₀ s' settled' opened' parts' ∧
      settled'.map PlacedPart.toPartRun ++ opened' =
        settled.map PlacedPart.toPartRun ++ opened ++ runs := by
  induction ms generalizing s settled opened parts with
  | nil =>
    obtain ⟨rfl, rfl⟩ := LowerM.runIn_pure_eq_ok hrun
    exact ⟨[], settled, opened, .nil, h, (List.append_nil _).symm⟩
  | cons m ms ih =>
    obtain ⟨hm, hms⟩ := List.forall_mem_cons.mp hms
    obtain ⟨parts₁, s₂, hadd, hrest⟩ := LowerM.runIn_bind_eq_ok hrun
    rcases hlower : m.runIn env s with ⟨err | text, s₁⟩
    · rw [runIn_add_error hlower] at hadd
      cases hadd
    obtain ⟨hnames, left, hleft⟩ := hm env s text s₁ hlower
    obtain ⟨settled₁, opened₁, h₁, hruns₁⟩ := h.add hlower hleft.symm hnames hadd
    obtain ⟨runs, settled', opened', hturn, h', hruns⟩ := ih hms h₁ hrest
    refine ⟨_, settled', opened', .cons hlower hleft.symm hadd hturn, h', ?_⟩
    rw [hruns, hruns₁, List.append_assoc]
    rfl

/-! ### The order that comes of it -/

/-! What is said of the settled and the open parts can be said of all parts, the open ones as they
stand. -/

theorem map_toPartRun_parts (settled : List PlacedPart) (opened : List PartRun) :
    (settled ++ opened.map PartRun.inline).map PlacedPart.toPartRun =
      settled.map PlacedPart.toPartRun ++ opened := by
  rw [List.map_append, List.map_map]
  exact congrArg _ (List.map_id opened)

theorem filterMap_temporary_parts (settled : List PlacedPart) (opened : List PartRun) :
    (settled ++ opened.map PartRun.inline).filterMap PlacedPart.temporary =
      settled.filterMap PlacedPart.temporary := by
  have hnone : (opened.map PartRun.inline).filterMap PlacedPart.temporary = [] := by
    rw [List.filterMap_map]
    exact List.filterMap_eq_nil_iff.mpr fun _ _ => rfl
  rw [List.filterMap_append, hnone, List.append_nil]

namespace Sequenced

variable {places : List Nat} {written : List String}

theorem texts_eq (h : Sequenced hint s₀ s settled opened parts) :
    parts.texts = (settled ++ opened.map PartRun.inline).map (PlacedPart.written hint) := by
  rw [h.texts, List.map_append, List.map_map]
  rfl

/-- The statements are those of the parts. -/
theorem pending_eq (h : Sequenced hint s₀ s settled opened parts) :
    s.pending = s₀.pending ++
      (movedOccurrences hint (settled ++ opened.map PartRun.inline)).map Prod.snd := by
  have hopened : (opened.map PartRun.inline).flatMap (PlacedPart.statements hint) =
      opened.flatMap PartRun.left := by
    rw [List.flatMap_map]
    exact List.flatMap_congr fun run _ => List.append_nil run.left
  rw [h.pending, map_snd_movedOccurrences, List.flatMap_append, hopened]

/-- A text that is not simple is that of an open part. -/
theorem length_le_of_not_simple (hhint : ∀ n : Nat, isSimple (hint ++ toString n))
    (h : Sequenced hint s₀ s settled opened parts) {i : Nat} {text : String}
    (htext : parts.texts[i]? = some text) (hsimple : isSimple text = false) :
    settled.length ≤ i := by
  -- Were it among the settled parts, its text would be simple: moved parts are names, and others
  -- had to be.
  by_contra hi
  have hlt : i < (settled.map (PlacedPart.written hint)).length := by
    rw [List.length_map]
    exact Nat.lt_of_not_le hi
  rw [h.texts, List.getElem?_append_left hlt, List.getElem?_map] at htext
  obtain ⟨part, hpart, rfl⟩ := Option.map_eq_some_iff.mp htext
  have hdecided := h.decided part (List.mem_of_getElem? hpart)
  refine Bool.eq_false_iff.mp hsimple ?_
  unfold PlacedPart.written
  split
  · exact hhint _
  · next hnone => exact hdecided.mp hnone

/-- Where nothing is open, all texts are simple. -/
theorem simple_of_settled (hhint : ∀ n : Nat, isSimple (hint ++ toString n))
    (h : Sequenced hint s₀ s settled [] parts) : ∀ text ∈ parts.texts, isSimple text := by
  intro text htext
  obtain ⟨i, hi, rfl⟩ := List.mem_iff_getElem.mp htext
  by_contra hsimple
  have hlength := h.length_le_of_not_simple hhint (List.getElem?_eq_getElem hi)
    (Bool.eq_false_iff.mpr hsimple)
  rw [h.texts, List.map_nil, List.append_nil, List.length_map] at hi
  omega

/-- What has been moved is settled, and so is what was left before the first open part. -/
theorem before_of_moved (h : Sequenced hint s₀ s settled opened parts) {o : Occurrence}
    (ho : o ∈ (movedOccurrences hint (settled ++ opened.map PartRun.inline)).map Prod.fst)
    {j : Nat} (hj : settled.length ≤ j) : o.Before (.text j) := by
  obtain ⟨i, part, hpart, ho⟩ := fst_mem_movedOccurrences.mp ho
  by_cases hi : i < settled.length
  -- What is settled lies before everything that is open.
  · refine Occurrence.before_of_lt ?_
    rcases ho with ⟨rfl, -⟩ | ⟨rfl, -⟩ <;> exact Nat.lt_of_lt_of_le hi hj
  -- An open part occurs among the statements by what it left only.
  · rw [List.getElem?_append_right (Nat.le_of_not_lt hi), List.getElem?_map] at hpart
    obtain ⟨run, hrun, rfl⟩ := Option.map_eq_some_iff.mp hpart
    rcases ho with ⟨rfl, hleft⟩ | ⟨-, hmoved⟩
    · -- Only the first open part has left statements.
      have hfirst : i - settled.length = 0 := by
        by_contra hne
        obtain ⟨k, hk⟩ := Nat.exists_eq_succ_of_ne_zero hne
        rw [hk, ← List.getElem?_tail] at hrun
        exact hleft (h.quiet run (List.mem_of_getElem? hrun))
      change i ≤ j
      omega
    · exact absurd rfl hmoved

/-- **The order of a sequence.** Each part has a place of its own where its text is written, and the
texts that are not simple stand there in their order. Then everything is evaluated in source order. -/
theorem inSourceOrder (hhint : ∀ n : Nat, isSimple (hint ++ toString n))
    (h : Sequenced hint s₀ s settled opened parts) (hplaces : InPlaces places parts.texts written)
    (hascending : (((places.zip parts.texts).filter fun p => !isSimple p.2).map Prod.fst).Pairwise
      (· < ·)) :
    InSourceOrder hint s₀.nextName s.nextName (settled ++ opened.map PartRun.inline) places
      written := by
  have htext {i : Nat} {part : PlacedPart}
      (hi : (settled ++ opened.map PartRun.inline)[i]? = some part) :
      parts.texts[i]? = some (part.written hint) := by
    rw [h.texts_eq, List.getElem?_map, hi]
    rfl
  have horder : ((movedOccurrences hint (settled ++ opened.map PartRun.inline)).map Prod.fst ++
      inlineOccurrences places written).Pairwise Occurrence.Before := by
    refine List.pairwise_append.mpr ⟨movedOccurrences_pairwise _,
      hplaces.inlineOccurrences_pairwise hascending, fun a ha b hb => ?_⟩
    obtain ⟨j, text, rfl, hj, hsimple⟩ := hplaces.mem_inlineOccurrences.mp hb
    exact h.before_of_moved ha (h.length_le_of_not_simple hhint hj hsimple)
  refine ⟨fun i part place hpart => hplaces.getElem? i _ place (htext hpart),
    fun part hpart hsimple => ?_, ?_, fun i part hpart hsimple => ?_, horder⟩
  -- A settled part is moved just where its text is not simple; an open one is not moved at all.
  · rcases List.mem_append.mp hpart with hpart | hpart
    · exact (h.decided part hpart).mpr hsimple
    · obtain ⟨run, -, rfl⟩ := List.mem_map.mp hpart
      rfl
  · have hfresh := h.fresh
    rwa [← map_toPartRun_parts, ← filterMap_temporary_parts settled opened] at hfresh
  -- No text occurs twice, for occurrences ascend; it occurs once, as a move or inline.
  · refine Nat.le_antisymm (Occurrence.count_text_le_one horder i) (List.count_pos_iff.mpr ?_)
    by_cases hmoved : part.temporary = none
    · have hown : part.written hint = part.text := by rw [PlacedPart.written, hmoved]
      exact List.mem_append_right _ (hplaces.mem_inlineOccurrences.mpr
        ⟨i, part.text, rfl, hown ▸ htext hpart, hsimple⟩)
    · exact List.mem_append_left _
        (fst_mem_movedOccurrences.mpr ⟨i, part, hpart, .inr ⟨rfl, hmoved⟩⟩)

end Sequenced

end Sequenced

end GoLua.Lower
