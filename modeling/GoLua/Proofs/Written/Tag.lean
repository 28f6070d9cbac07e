import GoLua.Proofs.Written.Convert

/-!
# Tags in patterns

The tag of a field is any text, and it is inserted between quotes into a pattern that is read for percent
signs afterwards. What looks like a placeholder there is one, so a tag may stop the lowering, or may be
written with the base of the field between its quotes. It never gets out of them: a placeholder takes no
part of an escape with it, and what is written for it has no quotes, since the base is either bound to a
local or a name already (`exists_spelled_fill`).

So a field with a tag is lowered to text of the grammar whatever the tag is (`Delivers.renderTagged`).
-/

namespace GoLua

open Lua Template

/-! ### Placeholders between quotes -/

namespace Template

/-- A pattern that starts with its operand. -/
theorem parse_behind (access : String) :
    parse 1 ("%e" ++ access) =
      (pieces 1 1 none access.toList).map (.placeholder [] 0 .expression :: ·) := by
  have hcut : cutText 1 0 none "%e".toList = some ([.place [] 0 .expression], 1) := rfl
  rw [parse, String.toList_append]
  exact pieces_cutText hcut _

section

variable {W : Piece → String → Prop}
  (hliteral : ∀ {cs text}, W (.literal cs) text ↔ text = String.ofList cs)
  (hpercent : ∀ {text}, W .percent text → IsQuiet text.toList)
  (hplace : ∀ {digits index tag text}, W (.placeholder digits index tag) text → IsQuiet text.toList)
include hliteral hpercent hplace

/-- **Placeholders stay between the quotes.** What is spelled between quotes and read as a pattern
renders to what is spelled between quotes, if nothing with quotes is written for the placeholders. -/
theorem exists_spelled_fill {cs : List Char} (hcs : IsSpelled cs) {count running : Nat}
    {digits? : Option (List Char)} {ps : List Piece}
    (hps : pieces count running digits? (cs ++ ['"', ']']) = .ok ps) {texts : List String}
    (h : List.Forall₂ W ps texts) :
    ∃ body, IsSpelled body ∧ (String.join texts).toList = body ++ ['"', ']'] := by
  induction hcs generalizing running digits? ps texts with
  | nil =>
    cases digits? with
    | none =>
      obtain ⟨rest, texts₁, hrest, h₁, hjoin₁⟩ := texts_char hliteral (by decide) hps h
      obtain ⟨rest, texts₂, hrest, h₂, hjoin₂⟩ := texts_char hliteral (by decide) hrest h₁
      obtain rfl : [] = rest := by simpa [pieces] using hrest
      cases h₂
      exact ⟨[], .nil, by rw [hjoin₁, hjoin₂]; rfl⟩
    | some digits =>
      rcases pieces_digits_eq_ok hps with ⟨hdigit, _⟩ | ⟨_, _, hc, _⟩ | ⟨_, _, _, _, htag, _⟩
      · cases hdigit
      · cases hc
      · cases htag
  | @plain c cs hquiet _ ih =>
    cases digits? with
    | none =>
      by_cases hc : c = '%'
      · rw [List.cons_append, pieces, if_pos hc] at hps
        exact ih hps h
      · obtain ⟨rest, texts', hrest, h', hjoin⟩ := texts_char hliteral hc hps h
        obtain ⟨body, hbody, htext⟩ := ih hrest h'
        exact ⟨c :: body, .plain hquiet hbody, by rw [hjoin, htext]; rfl⟩
    | some digits =>
      -- What is written here has no quotes, and what is behind it ends with the one that was there.
      have hpiece {q : Piece} {running : Nat} {rest : List Piece} {texts : List String}
          (hq : ∀ {text}, W q text → IsQuiet text.toList)
          (hrest : pieces count running none (cs ++ ['"', ']']) = .ok rest)
          (h : List.Forall₂ W (q :: rest) texts) :
          ∃ body, IsSpelled body ∧ (String.join texts).toList = body ++ ['"', ']'] := by
        obtain ⟨text, texts', htext, h', hjoin⟩ := texts_cons h
        obtain ⟨body, hbody, hjoin'⟩ := ih hrest h'
        exact ⟨text.toList ++ body, (hq htext).spelled.append hbody,
          by rw [hjoin, hjoin', List.append_assoc]⟩
      rcases pieces_digits_eq_ok hps with ⟨-, hrest⟩ | ⟨rest, rfl, -, hrest, -⟩ |
        ⟨numbered, tag, rest, -, -, rfl, hrest, -⟩
      · exact ih hrest h
      · exact hpiece hpercent hrest h
      · exact hpiece hplace hrest h
  | @escaped c cs hc _ ih =>
    cases digits? with
    | none =>
      obtain ⟨rest, texts₁, hrest, h₁, hjoin₁⟩ := texts_char hliteral (by decide) hps h
      obtain ⟨rest, texts₂, hrest, h₂, hjoin₂⟩ := texts_char hliteral hc hrest h₁
      obtain ⟨body, hbody, htext⟩ := ih hrest h₂
      exact ⟨'\\' :: c :: body, .escaped hc hbody, by rw [hjoin₁, hjoin₂, htext]; rfl⟩
    | some digits =>
      rcases pieces_digits_eq_ok hps with ⟨hdigit, _⟩ | ⟨_, _, hc, _⟩ | ⟨_, _, _, _, htag, _⟩
      · cases hdigit
      · cases hc
      · cases htag

end

end Template

section

variable {V : Vocabulary} {env : Env} {s : FunctionState} {self : Lowering} {base : Expr}
  {bound : Option String} {tag : Tag} {pattern : String}

/-! ### What is written for a value -/

/-- A value that is written without quotes: by a local, or by the name that it is. -/
def IsQuietly (base : Expr) (bound : Option String) : Prop :=
  (∃ name, bound = some name ∧ IsQuiet name.toList) ∨ bound = none ∧ base.unparen.isIdent

namespace Delivers

/-- Where tags may be any text, a pattern may be malformed. -/
theorem fails {α : Type} {Q : FunctionState → α → Prop} (hstrict : V.strict) {err : LowerError} :
    Delivers V env s (Lower.fail err : LowerM α) Q :=
  of_still (Lower.runIn_fail env s err) (fun _ _ h => nomatch h)
    fun _ _ => V.failing fun _ => hstrict

section

variable (hself : Lowers V self) (henv : env.Plain V) (hstrict : V.strict)
  (hbase : base.Settles V env s) (hvalue : base.IsValue env.facts)
include hself henv hstrict hbase hvalue

omit hself henv hbase in
/-- A value is no constant, not by now either. -/
theorem constant_eq_none (hs : s.Sound V) : env.constant? s base.id = none := by
  unfold Env.constant?
  rw [(hs.closed hstrict).constants, hvalue.constant]
  rfl

/-- An operand that is quiet, or bound to a quiet name, writes a text without quotes. -/
theorem quietOperand (hquiet : IsQuietly base bound) :
    Delivers V env s (Template.operandText self pattern tag (.expr base) bound)
      fun _ text => IsQuiet text.toList := by
  rcases hquiet with ⟨name, rfl, hname⟩ | ⟨rfl, hident⟩
  · exact .pure hname
  · refine (hself henv hbase none).bind fun s' f _ hf => .pure ?_
    have htext := hf.quiet hstrict hident hvalue
    unfold Fragment.operand
    split
    · unfold Text.parenthesized
      rw [String.toList_append, String.toList_append]
      exact (IsQuiet.append (by decide) htext).append (by decide)
    · exact htext

/-- So do the halves of it. -/
theorem quietHalf (hquiet : IsQuietly base bound) :
    Delivers V env s (Template.halfText self pattern tag (.expr base) bound)
      fun _ text => IsQuiet text.toList := by
  refine assuming fun hs => ?_
  have hoperand : Delivers V env s (Template.operandText self pattern tag (.expr base) bound)
      fun _ text => IsQuiet text.toList := quietOperand hself henv hstrict hbase hvalue hquiet
  unfold Template.halfText
  dsimp only
  rw [map_eq_pure_bind, bind_assoc]
  refine typeOf henv fun t _ => ?_
  rw [pure_bind]
  refine look (a := (env.constant? s base.id).bind Constant.toInt?) rfl fun _ => ?_
  -- The operand has no known value, so its half is computed from its text.
  rw [constant_eq_none hstrict hvalue hs]
  refine hoperand.bind fun s' text _ htext => .pure ?_
  split
  · split
    · have hcall (text : String) : (callText Support.arshift [text, "32"]).toList =
          (Support.arshift ++ "(").toList ++ text.toList ++ ", 32)".toList := by
        simp [callText, Text.parenthesized, Text.commaSeparated, String.toList_append]
      rw [hcall]
      exact (IsQuiet.append (by decide) htext).append (by decide)
    · rw [String.toList_append, String.toList_append]
      exact (IsQuiet.append (by decide) htext).append (by decide)
  · rw [String.toList_append, String.toList_append]
    exact (IsQuiet.append (by decide) htext).append (by decide)

/-- And so do its parts. -/
theorem quietPart (hquiet : IsQuietly base bound) :
    Delivers V env s (Template.partText self pattern tag (.expr base) bound)
      fun _ text => IsQuiet text.toList := by
  refine assuming fun hs => look (Lower.runIn_constantOf env s base) fun _ => ?_
  rw [constant_eq_none hstrict hvalue hs]
  refine (quietOperand hself henv hstrict hbase hvalue hquiet).bind fun s' text _ htext => .pure ?_
  rw [String.toList_append]
  refine htext.append ?_
  split <;> decide

/-- Every placeholder of such an operand is quiet. -/
theorem quietPlaceholder (htag : tag.evaluates) (hquiet : IsQuietly base bound) :
    Delivers V env s (Template.placeholderText self pattern tag (.expr base) bound)
      fun _ text => IsQuiet text.toList := by
  refine assuming fun hs => ?_
  have hoperand : Delivers V env s (Template.operandText self pattern tag (.expr base) bound)
      fun _ text => IsQuiet text.toList := quietOperand hself henv hstrict hbase hvalue hquiet
  cases tag with
  | text | integer | operator => cases htag
  | expression | folded =>
    cases bound with
    | some name => exact hoperand
    | none =>
      refine look (Lower.runIn_constantOf env s base) fun _ => ?_
      rw [constant_eq_none hstrict hvalue hs]
      exact hoperand
  | high | low => exact quietHalf hself henv hstrict hbase hvalue hquiet
  | realPart | imagPart => exact quietPart hself henv hstrict hbase hvalue hquiet

/-- What is written for a piece of a pattern whose only operand is a value; it has no quotes if the value
is written more than once. -/
def IsTagPiece (V : Vocabulary) (s : FunctionState) (shared : Prop) : Piece → String → Prop
  | .literal cs, text => text = String.ofList cs
  | .percent, text => text = "%"
  | .placeholder _ index tag, text =>
    index = 0 ∧ tag.evaluates ∧ IsText V true s text ∧ (shared → IsQuiet text.toList)

/-- A piece of a tagged pattern writes a text that keeps the tag a string. -/
theorem tagPiece {q : Piece} {shared : Prop} {locals : List (Option LocalBinding)}
    (hbound : IsBoundIn V s ((locals[0]?.join).map LocalBinding.name))
    (hquiet : shared → IsQuietly base ((locals[0]?.join).map LocalBinding.name)) :
    Delivers V env s (Template.pieceText self pattern (withNames [.expr base] locals) q)
      fun s' text => IsTagPiece V s' shared q text := by
  -- There is one operand, so a placeholder of another index is an error of the pattern.
  cases q with
  | literal cs => exact .pure rfl
  | percent => exact .pure rfl
  | placeholder digits index tag =>
    cases index with
    | succ index => exact fails hstrict
    | zero =>
      have hwithNames : (withNames [.expr base] locals)[0]? =
          some (.expr base, (locals[0]?.join).map LocalBinding.name) := getElem?_withNames rfl
      simp only [Template.pieceText, hwithNames]
      cases htag : tag.evaluates with
      | false => cases tag <;> first | exact fails hstrict | cases htag
      | true =>
        have hwritten : OperandShape.value.written? tag = some (true, false) := if_pos htag
        have htext : Delivers V env s (Template.placeholderText self pattern tag (.expr base) _) _ :=
          placeholderText hself henv (.expr hbase) hbound hwritten
        by_cases hshared : shared
        · refine (htext.and (quietPlaceholder hself henv hstrict hbase hvalue htag (hquiet hshared))).weaken
            fun s' text _ h => ⟨rfl, htag, h.1.1, fun _ => h.2⟩
        · exact htext.weaken fun s' text _ h => ⟨rfl, htag, h.1, fun h => absurd h hshared⟩

omit hself henv hbase in
/-- A value that is written more than once is a name, or is bound to a local. -/
theorem isQuietly_of_shared (hs : s.Sound V) {s' : FunctionState} {ps : List Piece}
    (hshared : 1 < useCount 0 ps) {locals : List (Option LocalBinding)}
    (hlocals : List.Forall₂ (Slot.IsBoundTo V s')
      (bindingRange ([Operand.expr base].zipIdx.map (slotOf (env.isConstant s) ps))) locals) :
    IsQuietly base ((locals[0]?.join).map LocalBinding.name) := by
  -- An operand that is used again is bound, unless it is a name; the operand is the only slot of
  -- the pattern.
  have hconstant : env.isConstant s base.id = false := by
    rw [Env.isConstant, constant_eq_none hstrict hvalue hs]
    rfl
  have hslots : [Operand.expr base].zipIdx.map (slotOf (env.isConstant s) ps) =
      [⟨.expr base, useCount 0 ps, base.unparen.isIdent⟩] := by
    simp [slotOf, Operand.isRepeatable, hconstant]
  rw [hslots] at hlocals
  cases hident : base.unparen.isIdent with
  | true =>
    rw [hident] at hlocals
    have hnone : bindingRange [⟨.expr base, useCount 0 ps, true⟩] = [] := by
      simp [bindingRange, Slot.mustBind]
    rw [hnone] at hlocals
    cases hlocals
    exact .inr ⟨rfl, hident⟩
  | false =>
    rw [hident] at hlocals
    have hone : bindingRange [⟨.expr base, useCount 0 ps, false⟩] =
        [⟨.expr base, useCount 0 ps, false⟩] := by
      simp [bindingRange, Slot.mustBind, hshared]
    rw [hone] at hlocals
    cases hlocals with
    | @cons _ b _ _ hb hrest =>
      cases hrest
      have hbinds : Slot.binds ⟨.expr base, useCount 0 ps, false⟩ := by
        simp only [Slot.binds, bne_iff_ne, Bool.not_false, Bool.and_true]
        omega
      obtain ⟨binding, rfl⟩ := Option.isSome_iff_exists.mp (hb.isSome base rfl hbinds)
      exact .inl ⟨binding.name, rfl, (hb.fits binding rfl).name.quiet⟩

omit hself henv hstrict hbase hvalue in
/-- A placeholder in a tag is one more use of the base, so it is written without quotes. -/
theorem forall₂_tagPiece {rest : List Piece} {texts : List String}
    (h : List.Forall₂ (IsTagPiece V s (1 < useCount 0 (.placeholder [] 0 .expression :: rest)))
      rest texts) : List.Forall₂ (IsTagPiece V s True) rest texts := by
  have hshared : ∀ q ∈ rest, ∀ digits tag, q = .placeholder digits 0 tag → tag.evaluates →
      1 < useCount 0 (.placeholder [] 0 .expression :: rest) := by
    rintro q hq digits tag rfl htag
    have hpos : 0 < useCount 0 rest := List.countP_pos_iff.mpr ⟨_, hq, by simp [htag]⟩
    have hone : useCount 0 [.placeholder [] 0 .expression] = 1 := rfl
    rw [useCount_cons, hone]
    omega
  refine ((List.forall₂_and_left rest texts).mpr ⟨hshared, h⟩).imp fun q text hq => ?_
  obtain ⟨hshared, hq⟩ := hq
  cases q with
  | placeholder digits index tag =>
    obtain ⟨rfl, htag, htext, hquiet⟩ := hq
    exact ⟨rfl, htag, htext, fun _ => hquiet (hshared digits tag rfl htag)⟩
  | _ => exact hq

omit hself henv hstrict hbase hvalue in
/-- What is written for the base, and for a tag behind it. -/
theorem isText_tagged {front tag : String} (hfront : IsText V true s front)
    (hhead : front.toList.head?.any isNameChar = false) (hinert : Inert front) {rest : List Piece}
    (hrest : pieces 1 1 none (front ++ "[" ++ quote tag ++ "]").toList = .ok rest)
    {texts : List String}
    (h : List.Forall₂ (IsTagPiece V s (1 < useCount 0 (.placeholder [] 0 .expression :: rest)))
      (.placeholder [] 0 .expression :: rest) texts) : IsText V true s (String.join texts) := by
  cases h with
  | @cons _ text _ texts hfirst h =>
  obtain ⟨-, -, htext, -⟩ := hfirst
  have hquiet := forall₂_tagPiece h
  obtain ⟨body, hbody, hspelled⟩ := exists_spelled_quote tag
  -- The pattern is cut in front of the tag: what stands there is inert, and what follows is spelled
  -- as a string that may have been filled.
  have hopen : '%' ∉ (front ++ "[").toList ++ ['"'] := by
    rw [List.mem_append]
    exact fun h => h.elim (inert_append hinert (by decide)) (by decide)
  have hpattern : (front ++ "[" ++ quote tag ++ "]").toList =
      ((front ++ "[").toList ++ ['"']) ++ (body ++ ['"', ']']) := by
    rw [String.toList_append, String.toList_append, hspelled]
    simp
  rw [hpattern, pieces_inert hopen] at hrest
  cases hinner : pieces 1 1 none (body ++ ['"', ']']) with
  | error fault => simp [hinner, Except.map] at hrest
  | ok inner =>
    rw [hinner] at hrest
    obtain rfl := Except.ok.inj hrest
    have hliteral {cs : List Char} {text : String} :
        IsTagPiece V s True (.literal cs) text ↔ text = String.ofList cs := Iff.rfl
    obtain ⟨texts', h', hjoin⟩ := texts_foldr_consChar hliteral hquiet
    obtain ⟨body', hbody', hjoin'⟩ := exists_spelled_fill hliteral
      (fun h => by rw [show _ = "%" from h]; decide) (fun h => h.2.2.2 trivial) hbody hinner h'
    have hlit : IsText V true s (String.ofList ('"' :: body' ++ ['"'])) := by
      refine .literal ?_
      rw [String.toList_ofList]
      exact hbody'.isLiteral
    refine emits_joined [.put htext, .tail hfront hhead, .text "[", .put hlit, .text "]"] rfl ?_
    rw [← String.toList_inj, String.join_cons, String.toList_append, hjoin, hjoin', toList_joined]
    simp [Part.string]

/-- **Fields with tags.** A property of a value is written in the grammar, whatever its tag is. -/
theorem renderTagged {front : String} (hfront : IsText V true s front)
    (hhead : front.toList.head?.any isNameChar = false) (hinert : Inert front) (tag : String) :
    Delivers V env s (render self ("%e" ++ (front ++ "[" ++ quote tag ++ "]")) [base]) (IsSound V) := by
  -- If the tag makes no pattern the run fails; otherwise the pieces behind the first placeholder
  -- are those of the tag.
  have hpieces := parse_behind (front ++ "[" ++ quote tag ++ "]")
  refine assuming fun hs => ?_
  cases hrest : pieces 1 1 none (front ++ "[" ++ quote tag ++ "]").toList with
  | error fault =>
    rw [hrest] at hpieces
    unfold render Template.renderAs
    rw [show parse [Operand.expr base].length _ = .error fault from hpieces]
    exact fails hstrict
  | ok rest =>
    rw [hrest] at hpieces
    refine renderPieces hself henv true (fun o ho => ?_) hpieces
      (W := fun s' q text => IsTagPiece V s'
        (1 < useCount 0 (.placeholder [] 0 .expression :: rest)) q text)
      (fun {_ _ q _} hgrows h => ?_) (fun s' locals hgrows hlocals q _ => ?_)
      (fun s' texts hgrows h => isText_tagged (hfront.mono hgrows) hhead hinert hrest h) fun _ => rfl
    · obtain rfl := List.mem_singleton.mp ho
      exact ⟨.value, hbase⟩
    · cases q with
      | placeholder digits index tag => exact ⟨h.1, h.2.1, h.2.2.1.mono hgrows, h.2.2.2⟩
      | _ => exact h
    · refine tagPiece hself henv hstrict (hbase.mono hgrows) hvalue (isBoundIn_withNames hlocals 0)
        fun hshared => isQuietly_of_shared hstrict hvalue hs hshared hlocals

end

end Delivers

end

end GoLua
