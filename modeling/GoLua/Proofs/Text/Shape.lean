import GoLua.Proofs.Text.Emitted

/-!
# Shapes of text

Lowering writes most of its texts by putting other texts between fixed ones. Whether the outcome is in
the grammar of emitted text can be told from the fixed parts alone, whatever is put between them:
`scan` reads a *shape*, characters with holes in it, keeps the brackets that are open, and tells
whether the whole is flat. `emitted_of_scan` says that it tells the truth.

A text that is given by its parts, each of them fixed or known to be in the grammar, is in the grammar
by one evaluation of `scan` (`emits_joined`).
-/

namespace GoLua

open Lua

/-! ### Reading a shape -/

/-- A character of a shape, or a hole in it. -/
inductive Atom where
  | char (c : Char)
  /-- A text that is flat or not; a `tail` does not start with a character of a name, so it may stand
  behind one. -/
  | hole (flat tail : Bool)

/-- What a shape that has been read so far ends with. -/
inductive Ending where
  /-- Characters of a name; there may be none. -/
  | word (w : List Char)
  /-- A hole, whose text may end with a name. -/
  | hole
  /-- A literal that is open, and what of it has been read. -/
  | literal (body : List Char)
  /-- A word behind a single quote. -/
  | quoted (w : List Char)

/-- Whether the end of what has been read is complete. -/
def Ending.isComplete : Ending → Bool
  | .word w => !isTelling w
  | .hole => true
  | .literal _ | .quoted _ => false

/-- Whether what stands behind may come to touch a name. -/
def Ending.touches : Ending → Bool
  | .word w => !w.isEmpty
  | _ => true

/-- What is known when a part of a shape has been read. -/
structure Reading where
  /-- The brackets that are open, and whether what stands before each of them is flat. -/
  frames : List (Char × Bool) := []
  /-- Whether what stands behind the last of them is flat. -/
  flat : Bool := true
  ending : Ending := .word []

namespace Reading

/-- Reads a character of code that is no part of a name. -/
def mark (r : Reading) (c : Char) : Option Reading :=
  if c = '"' then some { r with ending := .literal [] }
  else if isOpening c then some ⟨(c, r.flat) :: r.frames, true, .word []⟩
  else if isClosing c then
    match r.frames with
    | (o, outer) :: frames => if isPair o c then some ⟨frames, outer, .word []⟩ else none
    | [] => none
  else if c = '\x27' then some { r with ending := .quoted [] }
  else some ⟨r.frames, r.flat && c != ' ', .word []⟩

/-- Reads a character. -/
def char (r : Reading) (c : Char) : Option Reading :=
  match r.ending with
  | .literal body =>
    if c = '"' then some { r with ending := .word [] }
    else if c = '\\' then none
    else some { r with ending := .literal (body ++ [c]) }
  | .quoted w =>
    if isNameChar c then some { r with ending := .quoted (w ++ [c]) }
    else if c = '\x27' && !isTelling w then some { r with ending := .word [] }
    else none
  | .word w =>
    if isNameChar c then some { r with ending := .word (w ++ [c]) }
    else if isTelling w then none
    else r.mark c
  | .hole => if isNameChar c then none else r.mark c

/-- Passes over a hole. -/
def hole (r : Reading) (flat tail : Bool) : Option Reading :=
  if r.ending.isComplete && (tail || !r.ending.touches) then
    some { r with flat := r.flat && flat, ending := .hole }
  else none

end Reading

/-- Reads the rest of a shape. The answer tells whether the whole is flat; there is none if the
brackets do not fit, a literal is left open, names might touch, or a word may not stand anywhere. -/
def scan (r : Reading) : List Atom → Option Bool
  | [] => if r.frames.isEmpty && r.ending.isComplete then some r.flat else none
  | .char c :: atoms => (r.char c).bind (scan · atoms)
  | .hole flat tail :: atoms => (r.hole flat tail).bind (scan · atoms)

/-! ### Texts of a shape -/

section

variable {V : Vocabulary} {known : String → Prop}

/-- A text that has a shape: all holes are filled. -/
inductive HasShape (V : Vocabulary) (known : String → Prop) : List Atom → List Char → Prop where
  | nil : HasShape V known [] []
  | char (c : Char) {atoms : List Atom} {t : List Char} (h : HasShape V known atoms t) :
      HasShape V known (.char c :: atoms) (c :: t)
  | hole {flat tail : Bool} {u : List Char} {atoms : List Atom} {t : List Char}
      (hu : Emitted V known flat u) (htail : tail = true → u.head?.any isNameChar = false)
      (h : HasShape V known atoms t) : HasShape V known (.hole flat tail :: atoms) (u ++ t)

/-- A text with brackets that are still open: what stands in front of each is in the grammar, and so
is what stands behind the last one. -/
inductive Partial (V : Vocabulary) (known : String → Prop) :
    List (Char × Bool) → Bool → List Char → Prop where
  | closed {flat : Bool} {t : List Char} (h : Emitted V known flat t) : Partial V known [] flat t
  | opened {frames : List (Char × Bool)} {outer flat : Bool} {t u : List Char} {o : Char}
      (h : Partial V known frames outer t) (ho : isOpening o) (hu : Emitted V known flat u) :
      Partial V known ((o, outer) :: frames) flat (t ++ o :: u)

namespace Partial

variable {frames : List (Char × Bool)} {flat flat' : Bool} {t u : List Char}

/-- What is in the grammar may follow. -/
theorem append (h : Partial V known frames flat t) (hu : Emitted V known flat' u)
    (hapart : apart t u) : Partial V known frames (flat && flat') (t ++ u) := by
  cases h with
  | closed ht => exact .closed (.append ht hu hapart)
  | @opened frames outer flat t t' o h ho ht' =>
    rw [List.append_assoc, List.cons_append]
    refine .opened h ho (.append ht' hu ?_)
    -- Where nothing stands behind the bracket yet, there is no name to be touched.
    cases t' with
    | nil => rfl
    | cons c t' =>
      rw [apart, List.getLast?_append, List.getLast?_cons_cons] at hapart
      cases hlast : (c :: t').getLast? with
      | none => simp at hlast
      | some d => simpa [apart, hlast] using hapart

/-- The last bracket is closed. -/
theorem close {o c : Char} {outer : Bool} (h : Partial V known ((o, outer) :: frames) flat t)
    (hpair : isPair o c) : Partial V known frames outer (t ++ [c]) := by
  cases h with
  | @opened frames outer flat t t' o h ho ht' =>
    have hall := h.append (.bracket hpair ht'.loose)
      (apart_of_head (by simp [not_isNameChar_of_isOpening ho]) t)
    simpa using hall

end Partial

/-- What is known of a text that has been read. -/
inductive Begun (V : Vocabulary) (known : String → Prop) : Reading → List Char → Prop where
  | word {frames : List (Char × Bool)} {flat : Bool} {t w : List Char}
      (h : Partial V known frames flat t) (ht : t.getLast?.any isNameChar = false)
      (hw : w.all isNameChar) : Begun V known ⟨frames, flat, .word w⟩ (t ++ w)
  | hole {frames : List (Char × Bool)} {flat : Bool} {t : List Char}
      (h : Partial V known frames flat t) : Begun V known ⟨frames, flat, .hole⟩ t
  | literal {frames : List (Char × Bool)} {flat : Bool} {t body : List Char}
      (h : Partial V known frames flat t) (hbody : ∀ c ∈ body, c ≠ '"' ∧ c ≠ '\\') :
      Begun V known ⟨frames, flat, .literal body⟩ (t ++ '"' :: body)
  | quoted {frames : List (Char × Bool)} {flat : Bool} {t w : List Char}
      (h : Partial V known frames flat t) (hw : w.all isNameChar) :
      Begun V known ⟨frames, flat, .quoted w⟩ (t ++ '\x27' :: w)

namespace Begun

variable {r r' : Reading} {c : Char} {t u : List Char}

/-- What has come to an end can be followed by anything. -/
theorem complete (h : Begun V known r t) (hending : r.ending.isComplete) :
    Partial V known r.frames r.flat t := by
  cases h with
  | @word frames flat t w h ht hw =>
    have hplain : isTelling w = false := by simpa [Ending.isComplete] using hending
    simpa using h.append (.word hw hplain) (apart_of_last ht w)
  | hole h => exact h
  | literal h hbody => cases hending
  | quoted h hw => cases hending

/-- A new start behind a character that is no part of a name. -/
theorem fresh {frames : List (Char × Bool)} {flat : Bool} (hc : isNameChar c = false)
    (h : Partial V known frames flat (t ++ [c])) :
    Begun V known ⟨frames, flat, .word []⟩ (t ++ [c]) := by
  rw [← List.append_nil (t ++ [c])]
  exact .word h (by simp [hc]) rfl

/-- Reading a character of code that is no part of a name. -/
theorem mark (h : Partial V known r.frames r.flat t) (hc : isNameChar c = false)
    (hread : r.mark c = some r') : Begun V known r' (t ++ [c]) := by
  -- In the order of the reader: a quote opens a literal, brackets are put on the stack or taken
  -- off, an apostrophe opens a word, and all else is a sign or a blank.
  unfold Reading.mark at hread
  split at hread
  · next hquote =>
    obtain rfl := Option.some.inj hread
    subst hquote
    exact .literal h fun _ h => absurd h List.not_mem_nil
  split at hread
  · next hopening =>
    obtain rfl := Option.some.inj hread
    exact .fresh hc (.opened h hopening (.word rfl rfl))
  split at hread
  · next hclosing =>
    split at hread
    · next o outer frames hframes =>
      split at hread
      · next hpair =>
        obtain rfl := Option.some.inj hread
        rw [hframes] at h
        exact .fresh hc (h.close hpair)
      · cases hread
    · cases hread
  split at hread
  · next hsingle =>
    obtain rfl := Option.some.inj hread
    subst hsingle
    exact .quoted h rfl
  · next hquote hopening hclosing hsingle =>
    obtain rfl := Option.some.inj hread
    refine .fresh hc (h.append ?_ (apart_of_head (by simp [hc]) t))
    by_cases hblank : c = ' '
    · subst hblank
      exact .blank
    · have hsign : isSign c := by simp [isSign, *]
      rw [show (c != ' ') = true by simpa using hblank]
      exact .sign hsign

/-- Reading a character keeps what is known of the text. -/
theorem char (h : Begun V known r t) (hread : r.char c = some r') :
    Begun V known r' (t ++ [c]) := by
  -- What has been read so far decides what a character means: it goes on with a word, ends one, or
  -- stands in a string.
  cases h with
  | @word frames flat t w h ht hw =>
    simp only [Reading.char] at hread
    split at hread
    · next hc =>
      obtain rfl := Option.some.inj hread
      rw [List.append_assoc]
      exact .word h ht (by simp [List.all_append, hw, hc])
    · next hc =>
      split at hread
      · cases hread
      · next hplain =>
        have hword := h.append (.word hw (by simpa using hplain)) (apart_of_last ht w)
        rw [Bool.and_true] at hword
        exact .mark (r := ⟨frames, flat, .word w⟩) hword (by simpa using hc) hread
  | @hole frames flat t h =>
    simp only [Reading.char] at hread
    split at hread
    · cases hread
    · next hc => exact .mark (r := ⟨frames, flat, .hole⟩) h (by simpa using hc) hread
  | @literal frames flat t body h hbody =>
    simp only [Reading.char] at hread
    split at hread
    · next hc =>
      obtain rfl := Option.some.inj hread
      subst hc
      have hall := h.append (.literal (IsQuiet.spelled hbody).isLiteral) (apart_of_head rfl t)
      refine .fresh rfl ?_
      simpa using hall
    · next hquote =>
      split at hread
      · cases hread
      · next hslash =>
        obtain rfl := Option.some.inj hread
        rw [List.append_assoc, List.cons_append]
        refine .literal h fun d hd => ?_
        rcases List.mem_append.mp hd with hd | hd
        · exact hbody d hd
        · obtain rfl := List.mem_singleton.mp hd
          exact ⟨hquote, hslash⟩
  | @quoted frames flat t w h hw =>
    simp only [Reading.char] at hread
    split at hread
    · next hc =>
      obtain rfl := Option.some.inj hread
      rw [List.append_assoc, List.cons_append]
      exact .quoted h (by simp [List.all_append, hw, hc])
    split at hread
    · next hend =>
      obtain ⟨hclose, hplain⟩ := Bool.and_eq_true_iff.mp hend
      obtain rfl := of_decide_eq_true hclose
      obtain rfl := Option.some.inj hread
      have hall := h.append (.quoted hw (by simpa using hplain)) (apart_of_head rfl t)
      refine .fresh rfl ?_
      simpa using hall
    · cases hread

/-- Filling a hole keeps what is known of the text. -/
theorem filled {flat tail : Bool} (h : Begun V known r t) (hread : r.hole flat tail = some r')
    (hu : Emitted V known flat u) (htail : tail = true → u.head?.any isNameChar = false) :
    Begun V known r' (t ++ u) := by
  unfold Reading.hole at hread
  split at hread
  · next hfits =>
    obtain ⟨hending, htouch⟩ := Bool.and_eq_true_iff.mp hfits
    obtain rfl := Option.some.inj hread
    refine .hole ((h.complete hending).append hu ?_)
    rcases Bool.or_eq_true_iff.mp htouch with htail' | htouch
    · exact apart_of_head (htail htail') t
    · -- Nothing of a name stands before the hole.
      cases h with
      | @word frames flat t w h ht hw =>
        obtain rfl : w = [] := by simpa [Ending.touches] using htouch
        rw [List.append_nil]
        exact apart_of_last ht u
      | hole h => cases htouch
      | literal h hbody => cases htouch
      | quoted h hw => cases htouch
  · cases hread

end Begun

/-- **Reading tells the truth.** A text of a shape that can be read is in the grammar. -/
theorem emitted_of_begun {r : Reading} {flat : Bool} {atoms : List Atom} {t u : List Char}
    (hscan : scan r atoms = some flat) (ht : Begun V known r t) (hu : HasShape V known atoms u) :
    Emitted V known flat (t ++ u) := by
  -- By induction on the text: a character and a hole each take one step of the reader.
  induction hu generalizing r t with
  | nil =>
    rw [scan] at hscan
    split at hscan
    · next hend =>
      obtain ⟨hframes, hending⟩ := Bool.and_eq_true_iff.mp hend
      obtain rfl := Option.some.inj hscan
      have hpartial := ht.complete hending
      rw [List.isEmpty_iff.mp hframes] at hpartial
      rw [List.append_nil]
      cases hpartial with
      | closed h => exact h
    · cases hscan
  | hole hu htail _ ih =>
    obtain ⟨r', hread, hscan⟩ := Option.bind_eq_some_iff.mp hscan
    rw [← List.append_assoc]
    exact ih hscan (ht.filled hread hu htail)
  | @char c _ t' _ ih =>
    obtain ⟨r', hread, hscan⟩ := Option.bind_eq_some_iff.mp hscan
    have hall := ih hscan (ht.char hread)
    rwa [List.append_assoc] at hall

/-- A text of a shape that can be read from its start. -/
theorem emitted_of_scan {flat : Bool} {atoms : List Atom} {t : List Char}
    (hscan : scan {} atoms = some flat) (h : HasShape V known atoms t) : Emitted V known flat t := by
  have hstart : Begun V known {} ([] ++ []) := .word (.closed (.word rfl rfl)) rfl rfl
  exact emitted_of_begun hscan hstart h

/-! ### Parts -/

/-- A part of a text: fixed, or known to be in the grammar. -/
inductive Part (V : Vocabulary) (known : String → Prop) where
  | text (s : String)
  | put {flat : Bool} {s : String} (h : Emits V known flat s)
  /-- A part that does not start with a character of a name. -/
  | tail {flat : Bool} {s : String} (h : Emits V known flat s)
      (hs : s.toList.head?.any isNameChar = false)

namespace Part

/-- The text of a part. -/
def string : Part V known → String
  | .text s => s
  | @put _ _ _ s _ => s
  | @tail _ _ _ s _ _ => s

/-- The shape of a part. -/
def atoms : Part V known → List Atom
  | .text s => s.toList.map .char
  | @put _ _ flat _ _ => [.hole flat false]
  | @tail _ _ flat _ _ _ => [.hole flat true]

end Part

/-- The text that parts make. -/
def joined : List (Part V known) → String
  | [] => ""
  | p :: ps => ps.foldl (fun text q => text ++ q.string) p.string

/-- Parts are joined in order. -/
theorem toList_joined (ps : List (Part V known)) :
    (joined ps).toList = ps.flatMap fun p => p.string.toList := by
  cases ps with
  | nil => rfl
  | cons p ps =>
    have hfold (text : String) : (ps.foldl (fun text q => text ++ q.string) text).toList =
        text.toList ++ ps.flatMap fun p => p.string.toList := by
      induction ps generalizing text with
      | nil => simp
      | cons q ps ih => simp [ih]
    rw [joined, hfold, List.flatMap_cons]

theorem hasShape_append_char {atoms : List Atom} {t : List Char} (s : List Char)
    (h : HasShape V known atoms t) : HasShape V known (s.map .char ++ atoms) (s ++ t) := by
  induction s with
  | nil => exact h
  | cons c s ih => exact .char c ih

/-- Parts have the shape of their atoms. -/
theorem hasShape_parts (ps : List (Part V known)) :
    HasShape V known (ps.flatMap Part.atoms) (ps.flatMap fun p => p.string.toList) := by
  induction ps with
  | nil => exact .nil
  | cons p ps ih =>
    rw [List.flatMap_cons, List.flatMap_cons]
    cases p with
    | text s => exact hasShape_append_char s.toList ih
    | put h => exact .hole h (fun h => by cases h) ih
    | tail h hs => exact .hole h (fun _ => hs) ih

/-- **Texts by parts.** What parts make is in the grammar if their shape can be read. -/
theorem emits_joined (ps : List (Part V known)) {flat : Bool} {text : String}
    (hscan : scan {} (ps.flatMap Part.atoms) = some flat) (htext : text = joined ps) :
    Emits V known flat text := by
  rw [htext, Emits, toList_joined]
  exact emitted_of_scan hscan (hasShape_parts ps)

end

end GoLua
