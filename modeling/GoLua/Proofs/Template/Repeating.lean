import GoLua.Proofs.Template.Repeated
import GoLua.Proofs.Verbatim

/-!
# Patterns that repeat their operand

Some patterns are one operand, again and again, with fixed or inert text between (`repeating`). Whatever the
texts are, such a pattern is read as they are put together, and rendered with the operand, or the name of the
local that holds it, in each of the places (`runIn_render_repeating`).
-/

namespace GoLua

open Lower

namespace Template

/-- A text that stands in several places, with a text in front and one behind each of them. -/
def repeating (front : String) (backs : List String) (base : String) : String :=
  front ++ String.join (backs.map (base ++ ·))

/-- The pieces of such a pattern. -/
def repeatingPieces (front : String) (backs : List String) : List Piece :=
  front.toList.foldr consChar [] ++
    backs.flatMap fun back => .placeholder ['1'] 0 .expression :: back.toList.foldr consChar []

/-- In front of placeholders, characters are a literal of their own. -/
theorem foldr_consChar_flatMap (cs : List Char) (backs : List String) :
    cs.foldr consChar (repeatingPieces "" backs) =
      cs.foldr consChar [] ++ repeatingPieces "" backs := by
  cases backs with
  | nil => simp [repeatingPieces]
  | cons back backs => exact foldr_consChar_placeholder cs _ _ _ _

/-- The texts behind the placeholders are read for themselves. -/
theorem pieces_repeating {backs : List String} (h : ∀ back ∈ backs, Inert back) (running : Nat) :
    pieces 1 running none (String.join (backs.map ("%1e" ++ ·))).toList =
      .ok (repeatingPieces "" backs) := by
  -- A placeholder sets the count, whatever it was, so the induction is for every count.
  induction backs generalizing running with
  | nil => rfl
  | cons back backs ih =>
    have hcut : cutText 1 running none "%1e".toList =
        some ([.place ['1'] 0 .expression], 1) := rfl
    have hback : Inert back := h back List.mem_cons_self
    rw [List.map_cons, String.join_cons, String.append_assoc, String.toList_append,
      pieces_cutText hcut, String.toList_append, pieces_inert hback,
      ih (fun b hb => h b (List.mem_cons_of_mem _ hb)) 1]
    change Except.ok (Piece.placeholder ['1'] 0 .expression ::
      back.toList.foldr consChar (repeatingPieces "" backs)) = _
    rw [foldr_consChar_flatMap]
    simp [repeatingPieces]

/-- A text that repeats one placeholder is parsed into its pieces. -/
theorem parse_repeating {front : String} {backs : List String} (hfront : Inert front)
    (hbacks : ∀ back ∈ backs, Inert back) :
    parse 1 (repeating front backs "%1e") = .ok (repeatingPieces front backs) := by
  rw [parse, repeating, String.toList_append, pieces_inert hfront, pieces_repeating hbacks]
  change Except.ok (front.toList.foldr consChar (repeatingPieces "" backs)) = _
  rw [foldr_consChar_flatMap]
  rfl

/-- The operand is needed as often as it stands there. -/
theorem useCount_repeating (front : String) (backs : List String) :
    useCount 0 (repeatingPieces front backs) = backs.length := by
  have happend (ps qs : List Piece) : evaluated (ps ++ qs) = evaluated ps ++ evaluated qs :=
    List.filterMap_append
  have hbacks : (evaluated (backs.flatMap fun back =>
      .placeholder ['1'] 0 .expression :: back.toList.foldr consChar [])).count 0 = backs.length := by
    induction backs with
    | nil => rfl
    | cons back backs ih =>
      have hhead : evaluated (.placeholder ['1'] 0 .expression :: back.toList.foldr consChar []) = [0] :=
        congrArg (0 :: ·) (evaluated_foldr_consChar _)
      rw [List.flatMap_cons, happend, hhead, List.count_append, ih, List.length_cons, Nat.add_comm]
      rfl
  rw [useCount_eq_count, repeatingPieces, happend, evaluated_foldr_consChar, List.nil_append, hbacks]

section

variable {self : Lowering} {env : Env} {s s₁ : FunctionState} {e : Expr} {f : Fragment}
  {pattern front : String} {named : List (Operand × Option String)} {backs : List String}

/-- The text of the pieces, given the text of the operand. -/
theorem fixedAt_repeating {base : String}
    (hbase : ∀ digits {ps rest}, FixedAt self env s pattern named ps rest →
      FixedAt self env s pattern named (.placeholder digits 0 .expression :: ps)
        (Tag.expression.around false base ++ rest)) :
    FixedAt self env s pattern named (repeatingPieces front backs) (repeating front backs base) := by
  -- An empty text makes no piece at all.
  have hinert (cs : List Char) {ps : List Piece} {rest : String}
      (h : FixedAt self env s pattern named ps rest) :
      FixedAt self env s pattern named (cs.foldr consChar [] ++ ps) (String.ofList cs ++ rest) := by
    rcases foldr_consChar_eq cs with ⟨hnone, rfl⟩ | hone
    · rw [hnone]
      simpa using h
    · rw [hone]
      exact h.literal cs
  have hbacks : FixedAt self env s pattern named
      (backs.flatMap fun back => .placeholder ['1'] 0 .expression :: back.toList.foldr consChar [])
      (String.join (backs.map (base ++ ·))) := by
    induction backs with
    | nil => exact .nil
    | cons back backs ih =>
      have hcons := hbase ['1'] (hinert back.toList ih)
      rw [List.flatMap_cons, List.map_cons, String.join_cons, String.append_assoc]
      rwa [String.ofList_toList] at hcons
  have hfront := hinert front.toList hbacks
  rwa [String.ofList_toList] at hfront

/-- **Repeated operands between inert texts.** -/
theorem runIn_render_repeating {m : Nat} (hfront : Inert front) (hbacks : ∀ back ∈ backs, Inert back)
    (hmore : 1 < backs.length) (hunknown : env.constant? s e.id = none)
    (hrun : (within m e none).runIn env s = (.ok f, s₁)) :
    ∃ g s', (render (within m) (repeating front backs "%1e") [e]).runIn env s = (.ok g, s') ∧
      Repeats e f s₁ false (repeating front backs) g s' := by
  refine runIn_renderAs_repeated [] [] (parse_repeating hfront hbacks) ?_ hunknown (by simp) (by simp)
    hrun (fun hident => ?_) (fun name => ?_) false
  · rw [List.length_nil, useCount_repeating]
    exact hmore
  · obtain rfl := (still_within_of_isIdent hident m none).runIn_eq_ok hrun
    exact ⟨rfl, fixedAt_repeating fun _ => .again rfl hunknown (by decide) hrun⟩
  · exact fixedAt_repeating fun _ =>
      .name rfl ((constant?_newLocal e.id hrun).trans hunknown) (by decide)

end

end Template

end GoLua
