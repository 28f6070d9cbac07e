import GoLua.Proofs.Template.Grammar
import GoLua.Proofs.Text.Fragments
import GoLua.Proofs.Text.Inert
import Mathlib.Data.List.Forall2

/-!
# Patterns by parts

A pattern is put together from fixed text with placeholders and from texts that are inserted, which
have to be inert. Then it is cut into *items* just as parsing does, without a look at the inserted texts
(`parse_joined`). The items give the shape of what is rendered: a placeholder is a hole for what it
writes of its operand.

So whether a pattern renders to text of the grammar, and to flat text, can be told by evaluation
(`patternFlat`), whatever is inserted and whatever the operands are.
-/

namespace GoLua.Template

open Lua

/-! ### Items -/

/-- What parsing sees in a pattern. -/
inductive Item where
  | char (c : Char)
  /-- An inserted text; a `tail` does not start with a character of a name. -/
  | insert (flat tail : Bool) (text : String)
  | place (digits : List Char) (index : Nat) (tag : Tag)

/-- Puts an item in front of pieces. -/
def Item.onto : Item → List Piece → List Piece
  | .char c, ps => consChar c ps
  | .insert _ _ text, ps => text.toList.foldr consChar ps
  | .place digits index tag, ps => .placeholder digits index tag :: ps

/-- The pieces that items make. -/
def piecesOf (items : List Item) : List Piece :=
  items.foldr Item.onto []

/-- The items of fixed text, and the operand of the next placeholder without a number; none if the
text is malformed. -/
def cutText (count : Nat) : Nat → Option (List Char) → List Char → Option (List Item × Nat)
  | running, none, [] => some ([], running)
  | running, none, c :: cs =>
    if c = '%' then cutText count running (some []) cs
    else (cutText count running none cs).map fun r => (.char c :: r.1, r.2)
  | _, some _, [] => none
  | running, some digits, c :: cs =>
    if c.isDigit then cutText count running (some (digits ++ [c])) cs
    else
      match numberedOperand digits, Tag.ofLetter? c with
      | .ok numbered, some tag =>
        if numbered.getD running < count then
          (cutText count (numbered.getD running + 1) none cs).map
            fun r => (.place digits (numbered.getD running) tag :: r.1, r.2)
        else none
      | _, _ => none

section

variable {V : Vocabulary} {known : String → Prop} {count : Nat}

/-- The items of a pattern by its parts. -/
def cut (count : Nat) : Nat → List (Part V known) → Option (List Item)
  | _, [] => some []
  | running, .text s :: ps =>
    (cutText count running none s.toList).bind fun r => (cut count r.2 ps).map (r.1 ++ ·)
  | running, @Part.put _ _ flat s _ :: ps =>
    (cut count running ps).map (.insert flat false s :: ·)
  | running, @Part.tail _ _ flat s _ _ :: ps =>
    (cut count running ps).map (.insert flat true s :: ·)

/-- A part that may be inserted into a pattern. -/
def IsInsertable : Part V known → Prop
  | .text _ => True
  | @Part.put _ _ _ s _ => Inert s
  | @Part.tail _ _ _ s _ _ => Inert s

/-! ### Parsing -/

/-- Fixed text is cut as it is parsed. -/
theorem pieces_cutText {digits? : Option (List Char)} {running running' : Nat} {text : List Char}
    {items : List Item} (h : cutText count running digits? text = some (items, running'))
    (rest : List Char) :
    pieces count running digits? (text ++ rest) =
      (pieces count running' none rest).map fun ps => items.foldr Item.onto ps := by
  -- Along the recursion of the cut, which is that of the parser with the errors left out.
  fun_induction cutText count running digits? text generalizing items with
  | case1 running =>
    obtain ⟨rfl, rfl⟩ := Prod.mk.inj (Option.some.inj h)
    rw [List.nil_append]
    cases pieces count running none rest <;> rfl
  | case2 running cs ih =>
    rw [List.cons_append, pieces, if_pos rfl, ih h]
  | case3 running c cs hc ih =>
    obtain ⟨⟨items, next⟩, hr, heq⟩ := Option.map_eq_some_iff.mp h
    obtain ⟨rfl, rfl⟩ := Prod.mk.inj heq
    rw [List.cons_append, pieces, if_neg hc, ih hr]
    cases pieces count next none rest <;> rfl
  | case4 => cases h
  | case5 running digits c cs hc ih => rw [List.cons_append, pieces, if_pos hc, ih h]
  | case6 running digits c cs hc numbered tag htag hnumbered hindex ih =>
    obtain ⟨⟨items, next⟩, hr, heq⟩ := Option.map_eq_some_iff.mp h
    obtain ⟨rfl, rfl⟩ := Prod.mk.inj heq
    have hpercent : ¬ (c = '%' ∧ numbered = none) := by
      rintro ⟨rfl, -⟩
      cases htag
    rw [List.cons_append, pieces, if_neg hc, hnumbered]
    change (if c = '%' ∧ numbered = none then _ else _) = _
    rw [if_neg hpercent, htag]
    change (if count ≤ numbered.getD running then _
      else pieces count (numbered.getD running + 1) none (cs ++ rest) >>= _) = _
    rw [if_neg (Nat.not_le_of_lt hindex), ih hr]
    cases pieces count next none rest <;> rfl
  | case7 => cases h
  | case8 => cases h

/-- The rest of a pattern is cut as it is parsed. -/
theorem pieces_cut {ps : List (Part V known)} (hps : ∀ p ∈ ps, IsInsertable p) {running : Nat}
    {items : List Item} (h : cut count running ps = some items) :
    pieces count running none (ps.flatMap fun p => p.string.toList) = .ok (piecesOf items) := by
  -- Part by part: a text is cut, and what is put in is read literally since it is inert.
  induction ps generalizing running items with
  | nil =>
    obtain rfl := Option.some.inj h
    rfl
  | cons p ps ih =>
    have hrest := fun q hq => hps q (List.mem_cons_of_mem _ hq)
    have hp := hps p (List.mem_cons_self ..)
    rw [List.flatMap_cons]
    cases p with
    | text s =>
      obtain ⟨⟨front, next⟩, hfront, h⟩ := Option.bind_eq_some_iff.mp h
      obtain ⟨back, hback, rfl⟩ := Option.map_eq_some_iff.mp h
      rw [Part.string, pieces_cutText hfront, ih hrest hback, piecesOf, piecesOf,
        List.foldr_append]
      rfl
    | put hs =>
      obtain ⟨back, hback, rfl⟩ := Option.map_eq_some_iff.mp h
      rw [Part.string, pieces_inert hp, ih hrest hback]
      rfl
    | tail hs hhead =>
      obtain ⟨back, hback, rfl⟩ := Option.map_eq_some_iff.mp h
      rw [Part.string, pieces_inert hp, ih hrest hback]
      rfl

/-- **Parsing by parts.** A pattern is parsed into the pieces of its items. -/
theorem parse_joined {ps : List (Part V known)} (hps : ∀ p ∈ ps, IsInsertable p)
    {items : List Item} (h : cut count 0 ps = some items) :
    parse count (joined ps) = .ok (piecesOf items) := by
  rw [parse, toList_joined]
  exact pieces_cut hps h

/-! ### Shapes -/

/-- What an operand of a pattern is. -/
inductive OperandShape where
  /-- Something that is lowered, or has been. -/
  | value
  | text (flat tail : Bool)
  | operator

/-- What a placeholder writes of an operand: whether that is flat, and whether it is a tail; none if
the placeholder does not fit the operand. -/
def OperandShape.written? : OperandShape → Tag → Option (Bool × Bool)
  | .value, tag => if tag.evaluates then some (true, false) else none
  | .text flat tail, .text => some (flat, tail)
  | .operator, .operator => some (false, false)
  | _, _ => none

/-- The shape of what items render to; none if a placeholder does not fit its operand. -/
def atomsOf (shapes : List OperandShape) : List Item → Option (List Atom)
  | [] => some []
  | .char c :: items => (atomsOf shapes items).map (.char c :: ·)
  | .insert flat tail _ :: items => (atomsOf shapes items).map (.hole flat tail :: ·)
  | .place _ index tag :: items =>
    (shapes[index]?.bind (·.written? tag)).bind fun w =>
      (atomsOf shapes items).map (.hole w.1 w.2 :: ·)

/-- The atoms of two lists of items are joined. -/
theorem atomsOf_append (shapes : List OperandShape) (items rest : List Item) :
    atomsOf shapes (items ++ rest) =
      (atomsOf shapes items).bind fun front => (atomsOf shapes rest).map (front ++ ·) := by
  induction items with
  | nil => cases h : atomsOf shapes rest <;> simp [atomsOf, h]
  | cons item items ih =>
    cases item with
    | place digits index tag =>
      rw [List.cons_append, atomsOf, atomsOf, ih]
      cases shapes[index]?.bind (·.written? tag) <;> cases atomsOf shapes items <;>
        cases atomsOf shapes rest <;> rfl
    | _ =>
      rw [List.cons_append, atomsOf, atomsOf, ih]
      cases atomsOf shapes items <;> cases atomsOf shapes rest <;> rfl

/-- A stretch of a pattern: what can be told of a part without the text that it inserts. -/
inductive Stretch where
  | text (s : String)
  | insert (flat tail : Bool)

/-- What can be told of a part. -/
def stretchOf : Part V known → Stretch
  | .text s => .text s
  | @Part.put _ _ flat _ _ => .insert flat false
  | @Part.tail _ _ flat _ _ _ => .insert flat true

/-- The shape of what stretches of a pattern render to; none if the pattern is malformed or does not
fit its operands. -/
def atomsFrom (shapes : List OperandShape) : Nat → List Stretch → Option (List Atom)
  | _, [] => some []
  | running, .text s :: rest =>
    (cutText shapes.length running none s.toList).bind fun r => (atomsOf shapes r.1).bind fun front =>
      (atomsFrom shapes r.2 rest).map (front ++ ·)
  | running, .insert flat tail :: rest => (atomsFrom shapes running rest).map (.hole flat tail :: ·)

/-- Whether a pattern renders to flat text; none if it is malformed or does not fit its operands. -/
def patternFlat (shapes : List OperandShape) (stretches : List Stretch) : Option Bool :=
  (atomsFrom shapes 0 stretches).bind (scan {})

/-- The stretches of a pattern tell the shape of its items. -/
theorem exists_items {shapes : List OperandShape} {running : Nat} {ps : List (Part V known)}
    {atoms : List Atom} (h : atomsFrom shapes running (ps.map stretchOf) = some atoms) :
    ∃ items, cut shapes.length running ps = some items ∧ atomsOf shapes items = some atoms := by
  -- The check cuts a part and turns it into atoms at once; here the two are taken apart.
  induction ps generalizing running atoms with
  | nil => exact ⟨[], rfl, h⟩
  | cons p ps ih =>
    cases p with
    | text s =>
      obtain ⟨⟨front, next⟩, hfront, h⟩ := Option.bind_eq_some_iff.mp h
      obtain ⟨frontAtoms, hfrontAtoms, h⟩ := Option.bind_eq_some_iff.mp h
      obtain ⟨backAtoms, hbackAtoms, rfl⟩ := Option.map_eq_some_iff.mp h
      obtain ⟨back, hback, hatoms⟩ := ih hbackAtoms
      exact ⟨front ++ back, by simp [cut, hfront, hback],
        by simp [atomsOf_append, hfrontAtoms, hatoms]⟩
    | put hs =>
      obtain ⟨backAtoms, hbackAtoms, rfl⟩ := Option.map_eq_some_iff.mp h
      obtain ⟨back, hback, hatoms⟩ := ih hbackAtoms
      exact ⟨_, by rw [cut, hback]; rfl, by rw [atomsOf, hatoms]; rfl⟩
    | tail hs hhead =>
      obtain ⟨backAtoms, hbackAtoms, rfl⟩ := Option.map_eq_some_iff.mp h
      obtain ⟨back, hback, hatoms⟩ := ih hbackAtoms
      exact ⟨_, by rw [cut, hback]; rfl, by rw [atomsOf, hatoms]; rfl⟩

end

section

variable {V : Vocabulary} {known known' : String → Prop} {shapes : List OperandShape}

/-- An inserted text is in the grammar. -/
def Item.IsEmitted (V : Vocabulary) (known : String → Prop) : Item → Prop
  | .insert flat tail text =>
    Emits V known flat text ∧ (tail = true → text.toList.head?.any isNameChar = false)
  | _ => True

/-- What is emitted with some names known is emitted with more of them. -/
theorem Item.IsEmitted.mono {item : Item} (h : item.IsEmitted V known)
    (hknown : ∀ w, known w → known' w) : item.IsEmitted V known' := by
  cases item with
  | insert flat tail text => exact ⟨h.1.mono hknown, h.2⟩
  | _ => trivial

/-- The items of a text are its own characters and places. -/
theorem isEmitted_cutText {count : Nat} {digits? : Option (List Char)} {running running' : Nat}
    {text : List Char} {items : List Item}
    (h : cutText count running digits? text = some (items, running')) :
    ∀ item ∈ items, item.IsEmitted V known := by
  -- Only two cases add an item, a character or a place.
  fun_induction cutText count running digits? text generalizing items with
  | case1 running =>
    obtain ⟨rfl, -⟩ := Prod.mk.inj (Option.some.inj h)
    exact fun _ h => absurd h List.not_mem_nil
  | case2 running cs ih => exact ih h
  | case3 running c cs hc ih =>
    obtain ⟨⟨items, next⟩, hr, heq⟩ := Option.map_eq_some_iff.mp h
    obtain ⟨rfl, rfl⟩ := Prod.mk.inj heq
    exact List.forall_mem_cons.mpr ⟨trivial, ih hr⟩
  | case4 => cases h
  | case5 running digits c cs hc ih => exact ih h
  | case6 running digits c cs hc numbered tag htag hnumbered hindex ih =>
    obtain ⟨⟨items, next⟩, hr, heq⟩ := Option.map_eq_some_iff.mp h
    obtain ⟨rfl, rfl⟩ := Prod.mk.inj heq
    exact List.forall_mem_cons.mpr ⟨trivial, ih hr⟩
  | case7 => cases h
  | case8 => cases h

/-- What a list of parts inserts was emitted where the parts came from. -/
theorem isEmitted_cut {count running : Nat} {ps : List (Part V known)} {items : List Item}
    (h : cut count running ps = some items) : ∀ item ∈ items, item.IsEmitted V known := by
  -- Part by part; a text inserts nothing of its own, and the other two carry what they insert.
  induction ps generalizing running items with
  | nil =>
    obtain rfl := Option.some.inj h
    exact fun _ h => absurd h List.not_mem_nil
  | cons p ps ih =>
    cases p with
    | text s =>
      obtain ⟨⟨front, next⟩, hfront, h⟩ := Option.bind_eq_some_iff.mp h
      obtain ⟨back, hback, rfl⟩ := Option.map_eq_some_iff.mp h
      exact fun item hitem => (List.mem_append.mp hitem).elim (isEmitted_cutText hfront item)
        (ih hback item)
    | put hs =>
      obtain ⟨back, hback, rfl⟩ := Option.map_eq_some_iff.mp h
      exact List.forall_mem_cons.mpr ⟨⟨hs, fun h => by cases h⟩, ih hback⟩
    | tail hs hhead =>
      obtain ⟨back, hback, rfl⟩ := Option.map_eq_some_iff.mp h
      exact List.forall_mem_cons.mpr ⟨⟨hs, fun _ => hhead⟩, ih hback⟩

/-- A text that has been written for a piece. -/
def Piece.IsWritten (V : Vocabulary) (known : String → Prop) (shapes : List OperandShape) :
    Piece → String → Prop
  | .literal cs, text => text = String.ofList cs
  | .percent, _ => True
  | .placeholder _ index tag, text =>
    ∀ w, shapes[index]?.bind (·.written? tag) = some w →
      Emits V known w.1 text ∧ (w.2 = true → text.toList.head?.any isNameChar = false)

section

variable {W : Piece → String → Prop} (hliteral : ∀ {cs text}, W (.literal cs) text ↔ text = String.ofList cs)
include hliteral

omit hliteral in
/-- The text of the first piece comes first. -/
theorem texts_cons {q : Piece} {ps : List Piece} {texts : List String}
    (h : List.Forall₂ W (q :: ps) texts) :
    ∃ text texts', W q text ∧ List.Forall₂ W ps texts' ∧
      (String.join texts).toList = text.toList ++ (String.join texts').toList := by
  cases h with
  | @cons _ text _ texts htext h =>
    exact ⟨text, texts, htext, h, by rw [String.join_cons, String.toList_append]⟩

/-- A character in front of pieces comes in front of their texts. -/
theorem texts_consChar {c : Char} {ps : List Piece} {texts : List String}
    (h : List.Forall₂ W (consChar c ps) texts) :
    ∃ texts', List.Forall₂ W ps texts' ∧
      (String.join texts).toList = c :: (String.join texts').toList := by
  -- The character is a piece of its own, unless a literal follows that it joins.
  have halone {ps : List Piece} {texts : List String}
      (h : List.Forall₂ W (.literal [c] :: ps) texts) : ∃ texts', List.Forall₂ W ps texts' ∧
        (String.join texts).toList = c :: (String.join texts').toList := by
    obtain ⟨text, texts', htext, h', hjoin⟩ := texts_cons h
    obtain rfl := hliteral.mp htext
    exact ⟨texts', h', by rw [hjoin, String.toList_ofList]; rfl⟩
  match ps with
  | [] => exact halone h
  | .percent :: ps => exact halone h
  | .placeholder digits index tag :: ps => exact halone h
  | .literal cs :: ps =>
    obtain ⟨text, texts', htext, h', hjoin⟩ := texts_cons h
    obtain rfl := hliteral.mp htext
    exact ⟨String.ofList cs :: texts', .cons (hliteral.mpr rfl) h', by simp [hjoin, String.join_cons]⟩

/-- A character that is no percent sign stands for itself. -/
theorem texts_char {c : Char} (hc : c ≠ '%') {cs : List Char} {count running : Nat}
    {ps : List Piece} (hps : pieces count running none (c :: cs) = .ok ps) {texts : List String}
    (h : List.Forall₂ W ps texts) :
    ∃ rest texts', pieces count running none cs = .ok rest ∧ List.Forall₂ W rest texts' ∧
      (String.join texts).toList = c :: (String.join texts').toList := by
  rw [pieces, if_neg hc] at hps
  cases hrest : pieces count running none cs with
  | error fault => simp [hrest, Except.map] at hps
  | ok rest =>
    obtain rfl : consChar c rest = ps := by simpa [hrest, Except.map] using hps
    obtain ⟨texts', htexts, hjoin⟩ := texts_consChar hliteral h
    exact ⟨rest, texts', rfl, htexts, hjoin⟩

/-- Characters in front of a list of pieces are written as they are. -/
theorem texts_foldr_consChar {cs : List Char} {ps : List Piece} {texts : List String}
    (h : List.Forall₂ W (cs.foldr consChar ps) texts) :
    ∃ texts', List.Forall₂ W ps texts' ∧
      (String.join texts).toList = cs ++ (String.join texts').toList := by
  induction cs generalizing texts with
  | nil => exact ⟨texts, h, rfl⟩
  | cons c cs ih =>
    obtain ⟨texts₁, h₁, hjoin₁⟩ := texts_consChar hliteral h
    obtain ⟨texts₂, h₂, hjoin₂⟩ := ih h₁
    exact ⟨texts₂, h₂, by rw [hjoin₁, hjoin₂, List.cons_append]⟩

end

/-- What pieces are rendered to has the shape of their items. -/
theorem hasShape_of_isWritten {items : List Item} {atoms : List Atom}
    (hatoms : atomsOf shapes items = some atoms) (hitems : ∀ item ∈ items, item.IsEmitted V known)
    {texts : List String}
    (h : List.Forall₂ (Piece.IsWritten V known shapes) (piecesOf items) texts) :
    HasShape V known atoms (String.join texts).toList := by
  -- Item by item, with the texts that belong to it split off the front.
  induction items generalizing atoms texts with
  | nil =>
    obtain rfl := Option.some.inj hatoms
    cases h
    exact .nil
  | cons item items ih =>
    obtain ⟨hitem, hothers⟩ := List.forall_mem_cons.mp hitems
    cases item with
    | char c =>
      obtain ⟨rest, hrest, rfl⟩ := Option.map_eq_some_iff.mp hatoms
      obtain ⟨texts', h', hjoin⟩ := texts_consChar Iff.rfl h
      rw [hjoin]
      exact .char c (ih hrest hothers h')
    | insert flat tail text =>
      obtain ⟨rest, hrest, rfl⟩ := Option.map_eq_some_iff.mp hatoms
      obtain ⟨texts', h', hjoin⟩ := texts_foldr_consChar Iff.rfl h
      rw [hjoin]
      exact .hole hitem.1 hitem.2 (ih hrest hothers h')
    | place digits index tag =>
      obtain ⟨w, hw, hatoms⟩ := Option.bind_eq_some_iff.mp hatoms
      obtain ⟨rest, hrest, rfl⟩ := Option.map_eq_some_iff.mp hatoms
      cases h with
      | cons htext h =>
        obtain ⟨hemits, htail⟩ := htext w hw
        rw [String.join_cons, String.toList_append]
        exact .hole hemits htail (ih hrest hothers h)

/-- All placeholders of a pattern that has a shape fit their operands. -/
theorem fits_of_atomsOf {items : List Item} {atoms : List Atom}
    (hatoms : atomsOf shapes items = some atoms) {digits : List Char} {index : Nat} {tag : Tag}
    (h : Piece.placeholder digits index tag ∈ piecesOf items) :
    ∃ w, shapes[index]?.bind (·.written? tag) = some w := by
  -- A character in front of the pieces adds no place.
  have hconsChar {c : Char} {ps : List Piece} (h : .placeholder digits index tag ∈ consChar c ps) :
      .placeholder digits index tag ∈ ps := by
    unfold consChar at h
    split at h <;> simpa using h
  induction items generalizing atoms with
  | nil => cases h
  | cons item items ih =>
    cases item with
    | char c =>
      obtain ⟨rest, hrest, -⟩ := Option.map_eq_some_iff.mp hatoms
      exact ih hrest (hconsChar h)
    | insert flat tail text =>
      obtain ⟨rest, hrest, -⟩ := Option.map_eq_some_iff.mp hatoms
      have hfold (cs : List Char) (h : .placeholder digits index tag ∈
          cs.foldr consChar (piecesOf items)) : .placeholder digits index tag ∈ piecesOf items := by
        induction cs with
        | nil => exact h
        | cons c cs ih => exact ih (hconsChar h)
      exact ih hrest (hfold _ h)
    | place digits' index' tag' =>
      obtain ⟨w, hw, hatoms⟩ := Option.bind_eq_some_iff.mp hatoms
      obtain ⟨rest, hrest, -⟩ := Option.map_eq_some_iff.mp hatoms
      rcases List.mem_cons.mp h with heq | h
      · cases heq
        exact ⟨w, hw⟩
      · exact ih hrest h

end

end GoLua.Template
