import GoLua.Proofs.AccessorBoxes

/-!
# How fresh a fresh name is

The state of a function hands out three sorts of names: locals, temporaries and the names of accessor boxes.
Each is a hint, chosen by whoever asks, with the number of a counter that all of them share. No number is
handed out twice; whether no name is depends on the hints, since nothing in a name says where the hint ends
and the number begins.

Two names that were minted are alike in one case only: the earlier hint is the later one with digits behind
it, and these digits are what the later number has more than the earlier one (`append_toString_eq_iff`). So
all names differ where no hint ends in a digit, as none does that lowering uses (`isHint`), and hints of the
caller may make two names alike (`Ask.names_alike`). Boxes are asked for by keys, and their hints never end
in a digit; a key that is asked for again is answered with its first name.
-/

namespace GoLua

/-! ### Hints and numbers -/

/-- Whether a hint could take over digits of a number. -/
def endsInDigit (hint : String) : Bool :=
  hint.toList.getLast?.any Char.isDigit

/-- A number is no smaller than what its last digits write. -/
theorem le_of_toString_eq_append {m n : Nat} {front : List Char}
    (h : (toString m).toList = front ++ (toString n).toList) : n ≤ m := by
  rw [Nat.toString_eq_repr, Nat.toString_eq_repr, Nat.toList_repr, Nat.toList_repr] at h
  calc n = Nat.ofDigitChars 10 (Nat.toDigits 10 n) 0 := Nat.ofDigitChars_ten_toDigits.symm
    _ ≤ Nat.ofDigitChars 10 (Nat.toDigits 10 n) (Nat.ofDigitChars 10 front 0) := by
      rw [@Nat.ofDigitChars_eq_ofDigitChars_zero _ (Nat.ofDigitChars 10 front 0)]
      exact Nat.le_add_left _ _
    _ = Nat.ofDigitChars 10 (Nat.toDigits 10 m) 0 := by rw [h, Nat.ofDigitChars_append]
    _ = m := Nat.ofDigitChars_ten_toDigits

/-- **When two names are alike.** The hint of the smaller number has digits that the other number begins
with. -/
theorem append_toString_eq_iff {hint hint' : String} {m n : Nat} (h : m < n) :
    hint ++ toString m = hint' ++ toString n ↔
      ∃ digits : String, hint = hint' ++ digits ∧ toString n = digits ++ toString m := by
  constructor
  -- One hint is the front of the other, and the digits between them stand in front of its number.
  · intro heq
    have hlist := congrArg String.toList heq
    rw [String.toList_append, String.toList_append] at hlist
    obtain ⟨digits, -, hnumber⟩ | ⟨digits, hhint, hnumber⟩ := List.append_eq_append_iff.mp hlist
    · -- The larger number would end the smaller one.
      exact absurd (le_of_toString_eq_append hnumber) (Nat.not_le.mpr h)
    · refine ⟨String.ofList digits, String.toList_injective ?_, String.toList_injective ?_⟩
      · simpa using hhint
      · simpa using hnumber
  · rintro ⟨digits, rfl, hnumber⟩
    rw [hnumber, String.append_assoc]

/-- A hint that does not end in a digit is not taken for another one. -/
theorem append_toString_ne {hint hint' : String} {m n : Nat} (h : m < n) (hhint : ¬ endsInDigit hint) :
    hint ++ toString m ≠ hint' ++ toString n := by
  -- If the names were alike, the longer hint would end in a digit, or the numbers would be alike.
  intro heq
  obtain ⟨digits, rfl, hnumber⟩ := (append_toString_eq_iff h).mp heq
  cases hlast : digits.toList.getLast? with
  | none =>
    obtain rfl : digits = "" := String.toList_injective (List.getLast?_eq_none_iff.mp hlast)
    rw [String.empty_append] at hnumber
    exact absurd (toString_injective (congrArg ("" ++ ·) hnumber)) (Nat.ne_of_gt h)
  | some c =>
    have hmem : c ∈ (toString n).toList := by
      rw [hnumber, String.toList_append]
      exact List.mem_append_left _ (List.mem_of_getLast? hlast)
    refine hhint ?_
    rw [endsInDigit, String.toList_append, List.getLast?_append, hlast]
    exact isDigit_of_mem_toString hmem

/-! ### Asking for names -/

/-- What a function can be asked for: a local or a temporary by a hint, or the box of a key. -/
inductive Ask where
  | newLocal (hint : String)
  | newTemporary (hint : String)
  | accessorBox (key : String)

namespace Ask

/-- What a name that is minted starts with. -/
def hint : Ask → String
  | .newLocal hint => hint
  | .newTemporary hint => hint
  | .accessorBox key => key ++ "_ptr"

/-- The name, and the state afterwards. -/
def answer (s : FunctionState) : Ask → String × FunctionState
  | .newLocal hint => s.newLocal hint
  | .newTemporary hint => s.newTemporary hint
  | .accessorBox key => s.accessorBox key

/-- Whether a name is minted; a box is minted where its key is asked for first. -/
def mints (s : FunctionState) : Ask → Bool
  | .accessorBox key => (s.accessorBoxes.lookup key).isNone
  | _ => true

/-- The state after several calls. -/
def after (s : FunctionState) (asks : List Ask) : FunctionState :=
  asks.foldl (fun s ask => (ask.answer s).2) s

/-- The names that several calls mint, in their order. -/
def mintedNames (s : FunctionState) : List Ask → List String
  | [] => []
  | ask :: asks =>
    let names := mintedNames (ask.answer s).2 asks
    if ask.mints s then (ask.answer s).1 :: names else names

variable {s : FunctionState} {ask : Ask} {asks : List Ask} {key name : String}

/-! #### One call -/

/-- A name that is minted is the hint with the number that the counter has. -/
theorem answer_of_mints (h : ask.mints s) : (ask.answer s).1 = ask.hint ++ toString s.nextName := by
  cases ask with
  | newLocal => rfl
  | newTemporary => rfl
  | accessorBox key =>
    rw [answer, FunctionState.accessorBox, Option.isNone_iff_eq_none.mp h]
    rfl

/-- The counter goes on by one for each name that is minted. -/
theorem nextName_answer (s : FunctionState) (ask : Ask) :
    (ask.answer s).2.nextName = if ask.mints s then s.nextName + 1 else s.nextName := by
  cases ask with
  | newLocal => rfl
  | newTemporary => rfl
  | accessorBox key =>
    rw [answer, FunctionState.accessorBox, mints]
    cases s.accessorBoxes.lookup key <;> rfl

/-- The name of a box stays with its key. -/
theorem lookup_answer (h : s.accessorBoxes.lookup key = some name) (ask : Ask) :
    (ask.answer s).2.accessorBoxes.lookup key = some name := by
  cases ask with
  | newLocal => exact h
  | newTemporary => exact h
  | accessorBox other => exact lookup_accessorBox_of_lookup h other

/-! #### Several calls -/

/-- Answering never takes the counter back. -/
theorem nextName_le_answer (s : FunctionState) (ask : Ask) : s.nextName ≤ (ask.answer s).2.nextName := by
  rw [nextName_answer]
  split <;> omega

/-- The counter never goes back. -/
theorem nextName_le_after (s : FunctionState) (asks : List Ask) : s.nextName ≤ (after s asks).nextName := by
  induction asks generalizing s with
  | nil => exact Nat.le_refl _
  | cons ask asks ih => exact Nat.le_trans (nextName_le_answer s ask) (ih _)

/-- A box that is kept is found after any further asks. -/
theorem lookup_after (h : s.accessorBoxes.lookup key = some name) (asks : List Ask) :
    (after s asks).accessorBoxes.lookup key = some name := by
  induction asks generalizing s with
  | nil => exact h
  | cons ask asks ih => exact ih (lookup_answer h ask)

/-- Every name that is minted has a hint that was asked for, and a number that the counter had not passed. -/
theorem exists_of_mem_mintedNames {name : String} (h : name ∈ mintedNames s asks) :
    ∃ ask ∈ asks, ∃ n, s.nextName ≤ n ∧ name = ask.hint ++ toString n := by
  -- By induction on the asks; a name that is minted has the number the counter stood at.
  induction asks generalizing s with
  | nil => cases h
  | cons ask asks ih =>
    have hrest (h : name ∈ mintedNames (ask.answer s).2 asks) :
        ∃ other ∈ ask :: asks, ∃ n, s.nextName ≤ n ∧ name = other.hint ++ toString n := by
      obtain ⟨other, hother, n, hle, hname⟩ := ih h
      exact ⟨other, .tail _ hother, n, Nat.le_trans (nextName_le_answer s ask) hle, hname⟩
    rw [mintedNames] at h
    split at h
    · next hmints =>
      rcases List.mem_cons.mp h with rfl | h
      · exact ⟨ask, List.mem_cons_self, s.nextName, Nat.le_refl _, answer_of_mints hmints⟩
      · exact hrest h
    · exact hrest h

/-- No name is minted twice if no hint ends in a digit. -/
theorem nodup_mintedNames (h : ∀ ask ∈ asks, ¬ endsInDigit ask.hint) : (mintedNames s asks).Nodup := by
  -- By induction on the asks: what is minted later has a larger number, and no hint ends in a
  -- digit.
  induction asks generalizing s with
  | nil => exact List.nodup_nil
  | cons ask asks ih =>
    obtain ⟨hask, hasks⟩ := List.forall_mem_cons.mp h
    rw [mintedNames]
    split
    · next hmints =>
      refine List.nodup_cons.mpr ⟨fun hmem => ?_, ih hasks⟩
      obtain ⟨other, -, n, hle, hname⟩ := exists_of_mem_mintedNames hmem
      rw [nextName_answer, if_pos hmints] at hle
      rw [answer_of_mints hmints] at hname
      exact append_toString_ne (by omega) hask hname
    · exact ih hasks

end Ask

/-- **Fresh names.** Of the names that a function mints, whatever it is asked for in between, two are alike
just if the earlier hint has digits behind the later one that the later number has in front of the earlier
one. So names whose hints do not end in digits all differ, and no hint of a box does. A key that is asked
for again is answered with its first name, and nothing is minted. -/
theorem Ask.freshNames (s : FunctionState) :
    (∀ (ask ask' : Ask) (between : List Ask) (s' : FunctionState),
      after (ask.answer s).2 between = s' → ask.mints s → ask'.mints s' →
        ((ask.answer s).1 = (ask'.answer s').1 ↔
          ∃ digits : String, ask.hint = ask'.hint ++ digits ∧
            toString s'.nextName = digits ++ toString s.nextName)) ∧
    (∀ asks : List Ask, (∀ ask ∈ asks, ¬ endsInDigit ask.hint) → (mintedNames s asks).Nodup) ∧
    (∀ key : String, ¬ endsInDigit (accessorBox key).hint) ∧
    ∀ (key : String) (between : List Ask) (s' : FunctionState),
      after ((accessorBox key).answer s).2 between = s' →
        (accessorBox key).answer s' = (((accessorBox key).answer s).1, s') := by
  -- The parts of the theorem in turn: two names, a list of names, the hints of boxes, and a box
  -- that is asked for again.
  refine ⟨?_, fun asks => nodup_mintedNames, fun key => by simp [endsInDigit, hint], ?_⟩
  · rintro ask ask' between s' rfl hmints hmints'
    have hle := nextName_le_after (ask.answer s).2 between
    rw [nextName_answer, if_pos hmints] at hle
    rw [answer_of_mints hmints, answer_of_mints hmints']
    exact append_toString_eq_iff hle
  · rintro key between s' rfl
    have hfound : (after ((accessorBox key).answer s).2 between).accessorBoxes.lookup key =
        some ((accessorBox key).answer s).1 := lookup_after (lookup_accessorBox s key) between
    rw [answer, FunctionState.accessorBox, hfound]

/-- A temporary and a local for the box of a variable, and the box, which is asked for twice. -/
theorem Ask.freshNames_boxOfX :
    (mintedNames {} [.newTemporary "_v", .accessorBox "x", .newLocal "_ptr", .accessorBox "x"]).Nodup ∧
      (answer (after {} [.newTemporary "_v"]) (.accessorBox "x")).1 = "x_ptr1" ∧
      (answer (after {} [.newTemporary "_v", .accessorBox "x", .newLocal "_ptr"]) (.accessorBox "x")).1 =
        "x_ptr1" := by
  obtain ⟨-, hnodup, -, -⟩ := Ask.freshNames {}
  obtain ⟨-, -, -, hagain⟩ := Ask.freshNames (after {} [.newTemporary "_v"])
  refine ⟨hnodup _ (by decide +kernel), by decide +kernel, ?_⟩
  exact congrArg Prod.fst (hagain "x" [.newLocal "_ptr"] _ rfl)

/-- Twelve calls, the second with a hint that ends in a digit. -/
def aliked : List Ask :=
  [.newLocal "a", .newLocal "a1"] ++ List.replicate 9 (.newTemporary "_v") ++ [.newLocal "a"]

/-- That hint takes over a digit of a number: the second name and the last one are both `a11`. -/
theorem Ask.names_alike :
    mintedNames {} aliked =
        ["a0", "a11", "_v2", "_v3", "_v4", "_v5", "_v6", "_v7", "_v8", "_v9", "_v10", "a11"] ∧
      ¬ (mintedNames {} aliked).Nodup := by
  decide +kernel

end GoLua
