import GoLua.Proofs.Json.Lexical

/-!
# Reading texts back

What is written is read back as what it was, in any layout (`parse?_write`): a value whose keys and
doubles are written as they are (`IsWritten`) is what the reader makes of its text, up to the
containers that are nested too deep, which are unreadable (`cut`). A value without such containers
is not changed (`cut_of_nesting_le`).

The reader of values takes its rest from the reader of their parts, so what is shown of a value is
shown of its text before any rest that cannot continue a number (`Reads`). The reader takes no more
steps than there are characters in the text.
-/

namespace GoLua.Json

/-! ### What is written as it is -/

/-- A value whose text has a value again: its keys are as they are written, its doubles are
*stable*, which is to say that they come back from their own text, and nothing in it is
unreadable. -/
inductive IsWritten (stable : Double → Prop) : Json → Prop
  | null : IsWritten stable .null
  | bool (b : Bool) : IsWritten stable (.bool b)
  | int (negative : Bool) (n : Nat) : IsWritten stable (.int negative n)
  | real {x : Double} (h : stable x) : IsWritten stable (.real x)
  | string (s : String) : IsWritten stable (.string s)
  | array {items : List Json} (h : ∀ v ∈ items, IsWritten stable v) :
    IsWritten stable (.array items)
  | object {members : List (Key × Json)} (hkeys : ∀ m ∈ members, m.1.IsWritten)
      (h : ∀ m ∈ members, IsWritten stable m.2) : IsWritten stable (.object members)

mutual

/-- How many containers are nested in each other. -/
def nesting : Json → Nat
  | .array items => itemsNesting items + 1
  | .object members => membersNesting members + 1
  | _ => 0
termination_by structural j => j

/-- How deep the items of an array are nested. -/
def itemsNesting : List Json → Nat
  | [] => 0
  | v :: vs => max v.nesting (itemsNesting vs)
termination_by structural vs => vs

/-- How deep the members of an object are nested. -/
def membersNesting : List (Key × Json) → Nat
  | [] => 0
  | m :: ms => max (memberNesting m) (membersNesting ms)
termination_by structural ms => ms

/-- How deep a member is nested. -/
def memberNesting : Key × Json → Nat
  | (_, v) => v.nesting
termination_by structural m => m

end

mutual

/-- What the reader makes of a value: its containers down to a depth, and nothing of deeper ones. -/
def cut : Nat → Json → Json
  | depth, .array items => atDepth depth (.array (cutItems (depth - 1) items))
  | depth, .object members => atDepth depth (.object (cutMembers (depth - 1) members))
  | _, j => j
termination_by structural _ j => j

/-- What the reader makes of the items of an array. -/
def cutItems : Nat → List Json → List Json
  | _, [] => []
  | depth, v :: vs => v.cut depth :: cutItems depth vs
termination_by structural _ vs => vs

/-- What the reader makes of the members of an object. -/
def cutMembers : Nat → List (Key × Json) → List (Key × Json)
  | _, [] => []
  | depth, m :: ms => cutMember depth m :: cutMembers depth ms
termination_by structural _ ms => ms

/-- What the reader makes of a member. -/
def cutMember : Nat → Key × Json → Key × Json
  | depth, (key, v) => (key, v.cut depth)
termination_by structural _ m => m

end

/-- At a level that may still be opened nothing is cut. -/
theorem atDepth_of_pos {depth : Nat} (h : 0 < depth) (j : Json) : atDepth depth j = j :=
  if_neg (Nat.ne_of_gt h)

mutual

/-- What is not nested too deep is read as it is. -/
theorem cut_of_nesting_le {v : Json} {depth : Nat} (h : v.nesting ≤ depth) : v.cut depth = v := by
  cases v with
  | array items =>
    have hpos : 0 < depth := Nat.lt_of_lt_of_le (Nat.succ_pos _) h
    rw [cut, atDepth_of_pos hpos, cutItems_of_nesting_le (Nat.le_sub_one_of_lt h)]
  | object members =>
    have hpos : 0 < depth := Nat.lt_of_lt_of_le (Nat.succ_pos _) h
    rw [cut, atDepth_of_pos hpos, cutMembers_of_nesting_le (Nat.le_sub_one_of_lt h)]
  | _ => rfl
termination_by structural v

/-- A list that nests no deeper than the limit is not cut. -/
theorem cutItems_of_nesting_le {vs : List Json} {depth : Nat} (h : itemsNesting vs ≤ depth) :
    cutItems depth vs = vs := by
  cases vs with
  | nil => rfl
  | cons v vs =>
    rw [itemsNesting, Nat.max_le] at h
    rw [cutItems, cut_of_nesting_le h.1, cutItems_of_nesting_le h.2]
termination_by structural vs

/-- Nor are the members of an object that nests no deeper. -/
theorem cutMembers_of_nesting_le {ms : List (Key × Json)} {depth : Nat}
    (h : membersNesting ms ≤ depth) : cutMembers depth ms = ms := by
  cases ms with
  | nil => rfl
  | cons m ms =>
    rw [membersNesting, Nat.max_le] at h
    rw [cutMembers, cutMember_of_nesting_le h.1, cutMembers_of_nesting_le h.2]
termination_by structural ms

/-- Nor is one member. -/
theorem cutMember_of_nesting_le {m : Key × Json} {depth : Nat} (h : memberNesting m ≤ depth) :
    cutMember depth m = m := by
  cases m with
  | mk key v => exact congrArg (Prod.mk key) (cut_of_nesting_le h)
termination_by structural m

end

/-! ### Marks and words -/

section

variable {steps depth : Nat} {r : List Char}

/-- A blank or a mark does not continue a number. -/
theorem not_isNumberChar_of_isBlank {c : Char} (h : isBlank c) : isNumberChar c = false := by
  simp only [isBlank, Bool.or_eq_true, beq_iff_eq] at h
  rcases h with ((rfl | rfl) | rfl) | rfl <;> rfl

/-- Blanks end a number. -/
theorem endsNumber_blanks {blanks : List Char} (h : blanks.all isBlank) (hr : EndsNumber r) :
    EndsNumber (blanks ++ r) := by
  cases blanks with
  | nil => exact hr
  | cons c blanks =>
    rintro _ ⟨⟩
    rw [List.all_cons, Bool.and_eq_true] at h
    exact not_isNumberChar_of_isBlank h.1

theorem endsNumber_cons {c : Char} (h : isNumberChar c = false) (r : List Char) :
    EndsNumber (c :: r) := by
  rintro _ ⟨⟩
  exact h

/-- Blanks in front of a value are not read. -/
theorem value_skipBlanks (steps depth : Nat) (s : List Char) :
    value steps depth (skipBlanks s) = value steps depth s := by
  cases steps with
  | zero => rfl
  | succ steps => rw [value, value, skipBlanks_skipBlanks]

/-- So any blanks may stand in front of a value. -/
theorem value_blanks {blanks : List Char} (h : blanks.all isBlank) (r : List Char) :
    value steps depth (blanks ++ r) = value steps depth r := by
  rw [← value_skipBlanks, skipBlanks_append h, value_skipBlanks]

theorem items_skipBlanks (steps depth : Nat) (s : List Char) :
    items steps depth (skipBlanks s) = items steps depth s := by
  cases steps with
  | zero => rfl
  | succ steps => rw [items, items, value_skipBlanks]

theorem members_skipBlanks (steps depth : Nat) (s : List Char) :
    members steps depth (skipBlanks s) = members steps depth s := by
  cases steps with
  | zero => rfl
  | succ steps => rw [members, members, skipBlanks_skipBlanks]

/-- What starts like a number is read as one. -/
theorem value_number {c : Char} (hc : c = '-' ∨ c.isDigit) (s : List Char) :
    value (steps + 1) depth (c :: s) = number (c :: s) := by
  -- The first character decides which branch reads the value. It is a sign or a digit, and no other
  -- branch starts with one.
  have hne {d : Char} (hd : d ≠ '-' ∧ d.isDigit = false) : c ≠ d := by
    rintro rfl
    rcases hc with rfl | hc
    · exact hd.1 rfl
    · rw [hd.2] at hc
      cases hc
  have hblank : isBlank c = false := by
    simp only [isBlank, Bool.or_eq_false_iff, beq_eq_false_iff_ne]
    exact ⟨⟨⟨hne (by decide), hne (by decide)⟩, hne (by decide)⟩, hne (by decide)⟩
  rw [value, skipBlanks_cons hblank]
  split
  all_goals
    first
    | rfl
    | next heq => exact absurd (List.cons.inj heq).1 (hne (by decide))

/-- The text of a number starts with its sign or a digit. -/
theorem exists_cons_of_number {s : List Char} {p : Json × List Char} (h : number s = some p) :
    ∃ c cs, s = c :: cs ∧ (c = '-' ∨ c.isDigit) := by
  cases s with
  | nil => cases h
  | cons c cs =>
    refine ⟨c, cs, rfl, ?_⟩
    by_cases hminus : c = '-'
    · exact .inl hminus
    · right
      rw [number_cons hminus] at h
      have hwhole := (isWhole_of_unsignedNumber h).1
      by_contra hdigit
      rw [List.span_eq_takeWhile_dropWhile, List.takeWhile_cons_of_neg hdigit] at hwhole
      exact hwhole rfl

/-- What is read as a number is read as a value. -/
theorem value_of_number {s : List Char} {p : Json × List Char} (h : number s = some p) :
    value (steps + 1) depth s = some p := by
  obtain ⟨c, cs, rfl, hc⟩ := exists_cons_of_number h
  rw [value_number hc, h]

/-- A string is read up to its closing quote. -/
theorem value_string (s : String) (r : List Char) :
    value (steps + 1) depth ((stringText s).toList ++ r) = some (.string s, r) := by
  have htext : (stringText s).toList ++ r =
      '"' :: ((String.join (s.toList.map charText)).toList ++ '"' :: r) := by
    simp [stringText]
  have hvalue (t : List Char) : value (steps + 1) depth ('"' :: t) =
      (stringPieces t).map fun p => (stringOf p.1, p.2) := rfl
  rw [htext, hvalue, stringPieces_text, Option.map_some, stringOf_pieceOf]

/-! ### Containers -/

/-- An array is empty, or it has the items that are read up to its end. -/
theorem value_array (steps depth : Nat) (s : List Char) :
    value (steps + 1) depth ('[' :: s) =
      match skipBlanks s with
      | ']' :: r => some (atDepth depth (.array []), r)
      | r => (items steps (depth - 1) r).map fun p => (atDepth depth (.array p.1), p.2) := rfl

/-- An object starts with its brace, and is empty if the closing one is next. -/
theorem value_object (steps depth : Nat) (s : List Char) :
    value (steps + 1) depth ('\x7b' :: s) =
      match skipBlanks s with
      | '\x7d' :: r => some (atDepth depth (.object []), r)
      | r => (members steps (depth - 1) r).map fun p => (atDepth depth (objectOf p.1), p.2) := rfl

/-- Nothing starts with the end of a container. -/
theorem value_closing {c : Char} (h : c = ']' ∨ c = '\x7d') (s : List Char) :
    value steps depth (c :: s) = none := by
  cases steps with
  | zero => rfl
  | succ steps => rcases h with rfl | rfl <;> rfl

/-- Behind an opening bracket the items are read one level deeper. -/
theorem value_array_of_items {s : List Char} {vs : List Json}
    (h : items steps (depth - 1) s = some (vs, r)) :
    value (steps + 1) depth ('[' :: s) = some (atDepth depth (.array vs), r) := by
  rw [value_array]
  split
  · next heq =>
    -- The array is not empty, since no item starts with the end of an array.
    rw [← items_skipBlanks, heq] at h
    cases steps with
    | zero => cases h
    | succ steps =>
      rw [items, value_closing (.inl rfl)] at h
      cases h
  · rw [items_skipBlanks, h]
    rfl

/-- Behind an opening brace the members are. -/
theorem value_object_of_members {s : List Char} {ms : List (List StringPiece × Json)}
    (h : members steps (depth - 1) s = some (ms, r)) :
    value (steps + 1) depth ('\x7b' :: s) = some (atDepth depth (objectOf ms), r) := by
  rw [value_object]
  split
  · next heq =>
    rw [← members_skipBlanks, heq] at h
    cases steps <;> cases h
  · rw [members_skipBlanks, h]
    rfl

theorem toList_intercalate_one (t : String) : (",".intercalate [t]).toList = t.toList := by
  simp

theorem toList_intercalate_more (t u : String) (us : List String) :
    (",".intercalate (t :: u :: us)).toList =
      t.toList ++ ',' :: (",".intercalate (u :: us)).toList := by
  simp [String.toList_intercalate, List.intercalate]

/-- The last item ends the list. -/
theorem items_one {s t : List Char} {v : Json} (hv : value steps depth s = some (v, t))
    (ht : skipBlanks t = ']' :: r) : items (steps + 1) depth s = some ([v], r) := by
  rw [items, hv]
  dsimp only
  rw [ht]
  rfl

/-- A comma asks for another item. -/
theorem items_more {s t : List Char} {v : Json} (hv : value steps depth s = some (v, t))
    (ht : skipBlanks t = ',' :: r) :
    items (steps + 1) depth s = (items steps depth r).map fun p => (v :: p.1, p.2) := by
  rw [items, hv]
  dsimp only
  rw [ht]
  rfl

/-- What is read behind the colon of a member: its value, and the members after it. -/
def behindColon (steps depth : Nat) (key : List StringPiece) (s : List Char) :
    Option (List (List StringPiece × Json) × List Char) :=
  match value steps depth s with
  | none => none
  | some (v, r) =>
    match skipBlanks r with
    | '\x7d' :: r => some ([(key, v)], r)
    | ',' :: r => (members steps depth r).map fun p => ((key, v) :: p.1, p.2)
    | _ => none

/-- A member starts with its key, and a colon stands behind the key. -/
theorem members_quote (steps depth : Nat) (s : List Char) :
    members (steps + 1) depth ('"' :: s) =
      match stringPieces s with
      | none => none
      | some (key, r) =>
        match skipBlanks r with
        | ':' :: r => behindColon steps depth key r
        | _ => none := rfl

/-- The same with blanks in between. -/
theorem members_eq {s t u w : List Char} {key : List StringPiece} (hs : skipBlanks s = '"' :: t)
    (ht : stringPieces t = some (key, u)) (hu : skipBlanks u = ':' :: w) :
    members (steps + 1) depth s = behindColon steps depth key w := by
  rw [← members_skipBlanks, hs, members_quote, ht]
  dsimp only
  rw [hu]
  rfl

/-- The last member ends the object. -/
theorem behindColon_one {s t : List Char} {key : List StringPiece} {v : Json}
    (hv : value steps depth s = some (v, t)) (ht : skipBlanks t = '\x7d' :: r) :
    behindColon steps depth key s = some ([(key, v)], r) := by
  rw [behindColon, hv]
  dsimp only
  rw [ht]
  rfl

/-- A comma asks for another member. -/
theorem behindColon_more {s t : List Char} {key : List StringPiece} {v : Json}
    (hv : value steps depth s = some (v, t)) (ht : skipBlanks t = ',' :: r) :
    behindColon steps depth key s =
      (members steps depth r).map fun p => ((key, v) :: p.1, p.2) := by
  rw [behindColon, hv]
  dsimp only
  rw [ht]
  rfl

end

/-! ### Reading back -/

section

variable {layout : Layout} {steps depth level : Nat} {r lineEnd : List Char}

/-- The text of a value is read back, where nothing follows that could continue a number. -/
def Reads (layout : Layout) (v : Json) : Prop :=
  ∀ steps depth level r, (v.write layout level).toList.length ≤ steps → EndsNumber r →
    value steps depth ((v.write layout level).toList ++ r) = some (v.cut depth, r)

/-- The line break before a closing bracket is skipped. -/
theorem skipBlanks_lineEnd {c : Char} (hend : lineEnd.all isBlank) (hc : isBlank c = false) :
    skipBlanks (lineEnd ++ c :: r) = c :: r := by
  rw [skipBlanks_append hend, skipBlanks_cons hc]

/-- The characters of the items of an array. -/
def itemChars (layout : Layout) (level : Nat) (items : List Json) : List Char :=
  (",".intercalate (itemTexts layout level items)).toList

theorem itemChars_one (v : Json) :
    itemChars layout level [v] =
      (layout.lineBreak level).toList ++ (v.write layout level).toList := by
  rw [itemChars, itemTexts, itemTexts, toList_intercalate_one, String.toList_append]

theorem itemChars_more (v w : Json) (ws : List Json) :
    itemChars layout level (v :: w :: ws) = (layout.lineBreak level).toList ++
      ((v.write layout level).toList ++ ',' :: itemChars layout level (w :: ws)) := by
  rw [itemChars, itemTexts, itemTexts, toList_intercalate_more, String.toList_append,
    List.append_assoc]
  rfl

/-- The items of an array are read up to its end. -/
theorem items_itemChars (hend : lineEnd.all isBlank) {v : Json} {vs : List Json}
    (h : ∀ w ∈ v :: vs, Reads layout w)
    (hsteps : (itemChars layout level (v :: vs)).length < steps) :
    items steps depth (itemChars layout level (v :: vs) ++ (lineEnd ++ ']' :: r)) =
      some (cutItems depth (v :: vs), r) := by
  have hblank := layout.blank_lineBreak level
  -- There is at least one item, so the induction is on those behind the first.
  induction vs generalizing v steps with
  | nil =>
    rcases steps with _ | steps
    · cases hsteps
    rw [itemChars_one] at hsteps ⊢
    rw [List.length_append] at hsteps
    have hv := h v List.mem_cons_self steps depth level (lineEnd ++ ']' :: r) (by omega)
      (endsNumber_blanks hend (endsNumber_cons (by decide) r))
    rw [← value_blanks hblank, ← List.append_assoc] at hv
    exact items_one hv (skipBlanks_lineEnd hend (by decide))
  | cons w ws ih =>
    rcases steps with _ | steps
    · cases hsteps
    rw [itemChars_more] at hsteps ⊢
    simp only [List.length_append, List.length_cons] at hsteps
    have hv := h v List.mem_cons_self steps depth level
      (',' :: (itemChars layout level (w :: ws) ++ (lineEnd ++ ']' :: r)))
      (by omega) (endsNumber_cons (by decide) _)
    rw [← value_blanks hblank] at hv
    rw [List.append_assoc, List.append_assoc, List.cons_append,
      items_more hv (skipBlanks_cons (by decide) _),
      ih (fun u hu => h u (List.mem_cons_of_mem _ hu)) (by omega)]
    rfl

/-- The characters of the members of an object. -/
def memberChars (layout : Layout) (level : Nat) (members : List (Key × Json)) : List Char :=
  (",".intercalate (memberTexts layout level members)).toList

/-- The characters of a member behind its key. -/
def behindKey (layout : Layout) (level : Nat) (v : Json) : List Char :=
  ':' :: (layout.gap.toList ++ (v.write layout level).toList)

theorem memberChars_one (m : Key × Json) :
    memberChars layout level [m] = (layout.lineBreak level).toList ++
      ((stringText m.1.text).toList ++ behindKey layout level m.2) := by
  obtain ⟨key, v⟩ := m
  simp [memberChars, memberTexts, memberText, behindKey]

theorem memberChars_more (m n : Key × Json) (ms : List (Key × Json)) :
    memberChars layout level (m :: n :: ms) = (layout.lineBreak level).toList ++
      ((stringText m.1.text).toList ++
        (behindKey layout level m.2 ++ ',' :: memberChars layout level (n :: ms))) := by
  obtain ⟨key, v⟩ := m
  rw [memberChars, memberTexts, memberTexts, toList_intercalate_more]
  simp [memberText, behindKey, memberChars, memberTexts]

/-- How the reader of members returns a member. -/
def readMember (m : Key × Json) : List StringPiece × Json :=
  (m.1.text.toList.map pieceOf, m.2)

/-- A member is read up to its value. -/
theorem members_member (m : Key × Json) (r : List Char) :
    members (steps + 1) depth ((layout.lineBreak level).toList ++ ((stringText m.1.text).toList ++
        (behindKey layout level m.2 ++ r))) =
      behindColon steps depth (m.1.text.toList.map pieceOf)
        (layout.gap.toList ++ ((m.2.write layout level).toList ++ r)) := by
  have hkey (t : List Char) : (stringText m.1.text).toList ++ t =
      '"' :: ((String.join (m.1.text.toList.map charText)).toList ++ '"' :: t) := by
    simp [stringText]
  rw [hkey]
  refine members_eq (skipBlanks_lineEnd (layout.blank_lineBreak level) (by decide))
    (stringPieces_text _ _) ?_
  rw [behindKey, List.cons_append, skipBlanks_cons (by decide), List.append_assoc]

/-- The members of an object are read up to its end. -/
theorem members_memberChars (hend : lineEnd.all isBlank) {m : Key × Json} {ms : List (Key × Json)}
    (h : ∀ n ∈ m :: ms, Reads layout n.2)
    (hsteps : (memberChars layout level (m :: ms)).length < steps) :
    members steps depth (memberChars layout level (m :: ms) ++ (lineEnd ++ '\x7d' :: r)) =
      some ((cutMembers depth (m :: ms)).map readMember, r) := by
  have hgap := layout.blank_gap
  -- By induction on the members; the steps decrease with the text, which is longer than what is
  -- left of it.
  induction ms generalizing m steps with
  | nil =>
    obtain ⟨key, v⟩ := m
    rcases steps with _ | steps
    · cases hsteps
    rw [memberChars_one] at hsteps ⊢
    simp only [List.length_append, behindKey, List.length_cons] at hsteps
    have hreads : Reads layout v := h (key, v) List.mem_cons_self
    have hv := hreads steps depth level (lineEnd ++ '\x7d' :: r) (by omega)
      (endsNumber_blanks hend (endsNumber_cons (by decide) r))
    rw [← value_blanks hgap] at hv
    rw [List.append_assoc, List.append_assoc, members_member]
    exact behindColon_one hv (skipBlanks_lineEnd hend (by decide))
  | cons n ns ih =>
    obtain ⟨key, v⟩ := m
    rcases steps with _ | steps
    · cases hsteps
    rw [memberChars_more] at hsteps ⊢
    simp only [List.length_append, behindKey, List.length_cons] at hsteps
    have hreads : Reads layout v := h (key, v) List.mem_cons_self
    have hv := hreads steps depth level
      (',' :: (memberChars layout level (n :: ns) ++ (lineEnd ++ '\x7d' :: r)))
      (by omega) (endsNumber_cons (by decide) _)
    rw [← value_blanks hgap] at hv
    rw [List.append_assoc, List.append_assoc, List.append_assoc, members_member, List.cons_append,
      behindColon_more hv (skipBlanks_cons (by decide) _),
      ih (fun u hu => h u (List.mem_cons_of_mem _ hu)) (by omega)]
    rfl

/-- A value is read back if it is read from its text whatever follows. -/
theorem reads_of_text {v : Json} {c : Char} {cs : List Char}
    (htext : ∀ level, (v.write layout level).toList = c :: cs)
    (hvalue : ∀ steps depth r, value (steps + 1) depth (c :: (cs ++ r)) = some (v.cut depth, r)) :
    Reads layout v := by
  intro steps depth level r hsteps _
  rw [htext] at hsteps ⊢
  cases steps with
  | zero => cases hsteps
  | succ steps => exact hvalue steps depth r

/-- A value is read back if its text is the text of a number, whose end depends on what follows. -/
theorem reads_of_number {v : Json} (hcut : ∀ depth, v.cut depth = v)
    (h : ∀ level r, EndsNumber r → number ((v.write layout level).toList ++ r) = some (v, r)) :
    Reads layout v := by
  intro steps depth level r hsteps hr
  rw [hcut]
  rcases steps with _ | steps
  · have hempty := List.eq_nil_of_length_eq_zero (Nat.le_zero.mp hsteps)
    -- Without characters there is no number.
    have hnumber := h level [] (by rintro _ ⟨⟩)
    rw [hempty] at hnumber
    cases hnumber
  · exact value_of_number (h level r hr)

/-- An array that has items is written with brackets, each item on a line of its own. -/
theorem write_array_cons (v : Json) (vs : List Json) :
    ((Json.array (v :: vs)).write layout level).toList =
      '[' :: (itemChars layout (level + 1) (v :: vs) ++
        ((layout.lineBreak level).toList ++ [']'])) := by
  rw [write, enclosed, itemTexts, if_neg (by simp), ← itemTexts]
  simp [itemChars]

/-- So is an object, with braces. -/
theorem write_object_cons (m : Key × Json) (ms : List (Key × Json)) :
    ((Json.object (m :: ms)).write layout level).toList =
      '\x7b' :: (memberChars layout (level + 1) (m :: ms) ++
        ((layout.lineBreak level).toList ++ ['\x7d'])) := by
  rw [write, enclosed, memberTexts, if_neg (by simp), ← memberTexts]
  simp [memberChars]

/-- An array is read back if its items are. -/
theorem reads_array {vs : List Json} (h : ∀ v ∈ vs, Reads layout v) : Reads layout (.array vs) := by
  -- An empty array is written without a line break, so it has a text of its own.
  cases vs with
  | nil =>
    have htext (level : Nat) : ((Json.array []).write layout level).toList = ['[', ']'] := by
      simp [write, itemTexts, enclosed]
    exact reads_of_text htext fun _ _ _ => rfl
  | cons v vs =>
    intro steps depth level r hsteps _
    rw [write_array_cons] at hsteps ⊢
    cases steps with
    | zero => cases hsteps
    | succ steps =>
      simp only [List.length_cons, List.length_append] at hsteps
      rw [List.cons_append, List.append_assoc, List.append_assoc]
      exact value_array_of_items (items_itemChars (layout.blank_lineBreak level) h (by omega))

/-- Keys that are written as they are read keep their members. -/
theorem objectOf_readMember {ms : List (Key × Json)} (h : ∀ m ∈ ms, m.1.IsWritten) :
    objectOf (ms.map readMember) = .object ms := by
  have hkeys : (ms.map readMember).mapM (fun m => (keyOf? m.1).map (·, m.2)) = some ms := by
    induction ms with
    | nil => rfl
    | cons m ms ih =>
      rw [List.map_cons, List.mapM_cons, ih fun n hn => h n (List.mem_cons_of_mem _ hn), readMember,
        keyOf?_pieceOf (h m List.mem_cons_self)]
      rfl
  rw [objectOf, hkeys]

/-- Cutting a value keeps the keys. -/
theorem isWritten_of_mem_cutMembers {ms : List (Key × Json)} (h : ∀ m ∈ ms, m.1.IsWritten) :
    ∀ m ∈ cutMembers depth ms, m.1.IsWritten := by
  induction ms with
  | nil => exact h
  | cons m ms ih =>
    obtain ⟨key, v⟩ := m
    rw [List.forall_mem_cons] at h
    exact List.forall_mem_cons.mpr ⟨h.1, ih h.2⟩

/-- An object is read back if the values of its members are, and its keys are written as they
are. -/
theorem reads_object {ms : List (Key × Json)} (hkeys : ∀ m ∈ ms, m.1.IsWritten)
    (h : ∀ m ∈ ms, Reads layout m.2) : Reads layout (.object ms) := by
  -- As for arrays, the empty object has a text of its own.
  cases ms with
  | nil =>
    have htext (level : Nat) : ((Json.object []).write layout level).toList = ['\x7b', '\x7d'] := by
      simp [write, memberTexts, enclosed]
    exact reads_of_text htext fun _ _ _ => rfl
  | cons m ms =>
    intro steps depth level r hsteps _
    rw [write_object_cons] at hsteps ⊢
    cases steps with
    | zero => cases hsteps
    | succ steps =>
      simp only [List.length_cons, List.length_append] at hsteps
      rw [List.cons_append, List.append_assoc, List.append_assoc, cut,
        ← objectOf_readMember (isWritten_of_mem_cutMembers hkeys)]
      exact value_object_of_members
        (members_memberChars (layout.blank_lineBreak level) h (by omega))

/-- **Whatever is written is read back.** -/
theorem IsWritten.reads {v : Json} (h : v.IsWritten ReadsBack) : Reads layout v := by
  -- By induction on the value; only doubles ask for an assumption, that their text is read back.
  induction h with
  | null => exact reads_of_text (c := 'n') (fun _ => by rw [write]; rfl) fun _ _ _ => rfl
  | bool b =>
    cases b with
    | true => exact reads_of_text (c := 't') (fun _ => by rw [write]; rfl) fun _ _ _ => rfl
    | false => exact reads_of_text (c := 'f') (fun _ => by rw [write]; rfl) fun _ _ _ => rfl
  | int negative n =>
    exact reads_of_number (fun _ => rfl) fun _ _ hr => number_int hr negative n
  | real h => exact reads_of_number (fun _ => rfl) fun _ _ hr => h.number hr
  | string s =>
    have htext : (stringText s).toList =
        '"' :: ((String.join (s.toList.map charText)).toList ++ ['"']) := by
      simp [stringText]
    refine reads_of_text (fun _ => htext) fun steps depth r => ?_
    rw [← List.cons_append, ← htext]
    exact value_string s r
  | array _ ih => exact reads_array ih
  | object hkeys _ ih => exact reads_object hkeys ih

end

/-- **A text is read back.** What a value is written as, in any layout, is read as the value, down
to the depth that the reader allows. -/
theorem parse?_write (layout : Layout) {v : Json} (h : v.IsWritten ReadsBack) (depth : Nat) :
    parse? depth (v.write layout 0) = some (v.cut depth) := by
  have hvalue : value (2 * (v.write layout 0).toList.length + 2) depth (v.write layout 0).toList =
      some (v.cut depth, []) := by
    rw [← List.append_nil (v.write layout 0).toList]
    exact h.reads _ depth 0 [] (by simp; omega) (by rintro _ ⟨⟩)
  rw [parse?, hvalue]
  rfl

/-! ### Formats -/

/-- What data need of the format that they are written in. The texts of values are read back down to
the depth of a data file, and whatever is nested deeper has no value. -/
structure Format.Lawful (format : Format) (stable : Double → Prop) : Prop where
  readsBack : ∀ (layout : Layout) {j : Json}, j.IsWritten stable → j.nesting ≤ dataDepth →
    format.read (format.write layout j) = some j
  cutsOff : ∀ (layout : Layout) {j : Json}, j.IsWritten stable → dataDepth < j.nesting →
    format.read (format.write layout j) = some (j.cut dataDepth)

/-- The format of data files is lawful, for the doubles that its reader of numbers gives back. -/
theorem Format.data_lawful : Format.data.Lawful ReadsBack where
  readsBack layout j h hdepth := by
    have hwrite := parse?_write layout h dataDepth
    rwa [cut_of_nesting_le hdepth] at hwrite
  cutsOff layout j h _ := parse?_write layout h dataDepth

end GoLua.Json
