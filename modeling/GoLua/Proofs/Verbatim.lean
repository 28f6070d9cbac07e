import GoLua.Proofs.Run.Operator
import GoLua.Proofs.Written.Session

/-!
# Text of the program in patterns

Many patterns are put together when they are needed, around texts that the program brings in: names of
types and methods, ways along fields, tags. The whole is read for percent signs after that, so all
depends on what those texts look like.

A text is *inert* if it has no percent sign, and quoting keeps it so. Inert text that is inserted into a
pattern is written as it is (`Template.renderAs_verbatim`), and no pattern of lowering is malformed if all
that is inserted is inert (`Session.inert_verbatim`). Names of a program always are. Tags need not be:
nobody doubles the percent signs of a tag, so one that has any may stop the lowering of a good program,
or name another property (`Lower.tags_not_verbatim`).
-/

namespace GoLua

open Lua Lower

/-! ### What is inserted -/

namespace Template

/-- What a percent sign starts is the same whatever is behind it. -/
theorem pieces_digits_alike {count running : Nat} {digits : List Char} {c : Char} {cs cs' : List Char}
    {ps qs : List Piece} (h : pieces count running (some digits) (c :: cs) = .ok ps)
    (h' : pieces count running (some digits) (c :: cs') = .ok qs) :
    (pieces count running (some (digits ++ [c])) cs = .ok ps ∧
        pieces count running (some (digits ++ [c])) cs' = .ok qs) ∨
      ∃ q next ps' qs', ps = q :: ps' ∧ qs = q :: qs' ∧ pieces count next none cs = .ok ps' ∧
        pieces count next none cs' = .ok qs' := by
  -- Three ways to go on, taken for both numbers of operands: the character decides which, so mixed
  -- cases are impossible.
  rcases pieces_digits_eq_ok h with ⟨hdigit, hps⟩ | ⟨ps', rfl, rfl, hps, -⟩ |
    ⟨numbered, tag, ps', hnumbered, htag, rfl, hps, -⟩
  · rw [pieces, if_pos hdigit] at h'
    exact .inl ⟨hps, h'⟩
  · rcases pieces_digits_eq_ok h' with ⟨hdigit, -⟩ | ⟨qs', rfl, -, hqs, -⟩ | ⟨_, _, _, _, htag, _⟩
    · cases hdigit
    · exact .inr ⟨_, _, ps', qs', rfl, rfl, hps, hqs⟩
    · cases htag
  · rcases pieces_digits_eq_ok h' with ⟨hdigit, -⟩ | ⟨_, _, rfl, _⟩ |
      ⟨numbered', tag', qs', hnumbered', htag', rfl, hqs, -⟩
    · exact absurd hdigit (by simp [isDigit_of_ofLetter? htag])
    · cases htag
    · obtain rfl := Except.ok.inj (hnumbered.symm.trans hnumbered')
      obtain rfl := Option.some.inj (htag.symm.trans htag')
      exact .inr ⟨_, _, ps', qs', rfl, rfl, hps, hqs⟩

section

variable {W : Piece → String → Prop}
  (hliteral : ∀ {cs text}, W (.literal cs) text ↔ text = String.ofList cs)
include hliteral

/-- What is behind a pattern that is complete is read as if it stood alone, and written behind what is
written for that pattern. -/
theorem exists_texts_behind {count running : Nat} {digits? : Option (List Char)} {t rest : List Char}
    {ps qs : List Piece} (ht : pieces count running digits? t = .ok ps)
    (h : pieces count running digits? (t ++ rest) = .ok qs) {texts : List String}
    (htexts : List.Forall₂ W qs texts) :
    ∃ running' qs' texts' before, pieces count running' none rest = .ok qs' ∧
      List.Forall₂ W qs' texts' ∧
      (String.join texts).toList = before ++ (String.join texts').toList := by
  induction t generalizing running digits? ps qs texts with
  | nil =>
    cases digits? with
    | none => exact ⟨running, qs, texts, [], h, htexts, rfl⟩
    | some digits =>
      -- A placeholder without a tag is not complete.
      rw [pieces] at ht
      cases hnumbered : numberedOperand digits <;> simp [hnumbered, bind, Except.bind] at ht
  | cons c t ih =>
    cases digits? with
    | none =>
      by_cases hc : c = '%'
      · rw [List.cons_append, pieces, if_pos hc] at h
        rw [pieces, if_pos hc] at ht
        exact ih ht h htexts
      · obtain ⟨ps', hps⟩ : ∃ ps', pieces count running none t = .ok ps' := by
          rw [pieces, if_neg hc] at ht
          cases hps : pieces count running none t with
          | error fault => simp [hps, Except.map] at ht
          | ok ps' => exact ⟨ps', rfl⟩
        obtain ⟨qs₁, texts₁, hqs₁, htexts₁, hjoin₁⟩ := texts_char hliteral hc h htexts
        obtain ⟨next, qs₂, texts₂, before, hqs₂, htexts₂, hjoin₂⟩ := ih hps hqs₁ htexts₁
        exact ⟨next, qs₂, texts₂, c :: before, hqs₂, htexts₂, by rw [hjoin₁, hjoin₂]; rfl⟩
    | some digits =>
      rcases pieces_digits_alike ht h with ⟨hps, hqs⟩ | ⟨q, next, ps', qs', -, rfl, hps, hqs⟩
      · exact ih hps hqs htexts
      · obtain ⟨text, texts₁, -, htexts₁, hjoin₁⟩ := texts_cons htexts
        obtain ⟨next', qs₂, texts₂, before, hqs₂, htexts₂, hjoin₂⟩ := ih hps hqs htexts₁
        exact ⟨next', qs₂, texts₂, text.toList ++ before, hqs₂, htexts₂,
          by rw [hjoin₁, hjoin₂, List.append_assoc]⟩

/-- Inert text behind a pattern that is complete is written as it is. -/
theorem exists_texts_verbatim {count : Nat} {front text back : String}
    (hfront : (parse count front).isOk) (htext : Inert text) {ps : List Piece}
    (h : parse count (front ++ text ++ back) = .ok ps) {texts : List String}
    (htexts : List.Forall₂ W ps texts) :
    ∃ before after, String.join texts = before ++ text ++ after := by
  cases hfronts : parse count front with
  | error fault =>
    rw [hfronts] at hfront
    cases hfront
  | ok fronts =>
    -- The pattern is read from the left: what stands before the text is a pattern of its own, and
    -- the text itself is inert.
    have hwhole : pieces count 0 none (front.toList ++ (text.toList ++ back.toList)) = .ok ps := by
      rw [← List.append_assoc, ← String.toList_append, ← String.toList_append]
      exact h
    obtain ⟨running, qs, texts₁, before, hqs, htexts₁, hjoin₁⟩ :=
      exists_texts_behind hliteral hfronts hwhole htexts
    rw [pieces_inert htext] at hqs
    cases hrest : pieces count running none back.toList with
    | error fault => simp [hrest, Except.map] at hqs
    | ok rest =>
      obtain rfl : text.toList.foldr consChar rest = qs := by simpa [hrest, Except.map] using hqs
      obtain ⟨texts₂, -, hjoin₂⟩ := texts_foldr_consChar hliteral htexts₁
      refine ⟨String.ofList before, String.join texts₂, ?_⟩
      rw [← String.toList_inj, String.toList_append, String.toList_append, String.toList_ofList,
        hjoin₁, hjoin₂, List.append_assoc]

end

section

variable {self : Lowering} {env : Env} {s s' : FunctionState}

/-- Each of several computations has run, from some state. -/
theorem forall₂_of_runIn_mapM {α β : Type} {g : α → LowerM β} {as : List α} {bs : List β}
    (h : (as.mapM g).runIn env s = (.ok bs, s')) :
    List.Forall₂ (fun a b => ∃ s₁ s₂, (g a).runIn env s₁ = (.ok b, s₂)) as bs := by
  induction as generalizing s bs with
  | nil =>
    obtain ⟨rfl, -⟩ := LowerM.runIn_pure_eq_ok h
    exact .nil
  | cons a as ih =>
    obtain ⟨b, s₁, rest, hb, hrest, rfl⟩ := LowerM.runIn_mapM_cons_eq_ok h
    exact .cons ⟨s, s₁, hb⟩ (ih hrest)

/-- Literals are written as they are, from whatever state. -/
theorem writes_literal_iff {pattern : String} {named : List (Operand × Option String)}
    {cs : List Char} {text : String} :
    (∃ s₁ s₂, (pieceText self pattern named (.literal cs)).runIn env s₁ = (.ok text, s₂)) ↔
      text = String.ofList cs := by
  constructor
  · rintro ⟨s₁, s₂, h⟩
    exact (LowerM.runIn_pure_eq_ok h).1.symm
  · rintro rfl
    exact ⟨default, default, rfl⟩

/-- **Inert text is written as it is**, wherever it stands in a pattern. -/
theorem renderAs_verbatim {parens : Bool} {operands : List Operand} {front text back : String}
    {f : Fragment} (hfront : (parse operands.length front).isOk) (htext : Inert text)
    (h : (renderAs parens self (front ++ text ++ back) operands).runIn env s = (.ok f, s')) :
    ∃ before after, f.text = before ++ text ++ after := by
  unfold renderAs at h
  cases hps : parse operands.length (front ++ text ++ back) with
  | error fault =>
    rw [hps] at h
    cases h
  | ok ps =>
    -- Only the texts of the pieces matter; bindings are written around the body and leave it as it
    -- is.
    rw [hps] at h
    obtain ⟨slots, s₁, -, h⟩ := LowerM.runIn_bind_eq_ok h
    obtain ⟨bound, s₂, -, h⟩ := LowerM.runIn_bind_eq_ok h
    obtain ⟨texts, s₃, htexts, h⟩ := LowerM.runIn_bind_eq_ok h
    obtain ⟨before, after, hbody⟩ :=
      exists_texts_verbatim writes_literal_iff hfront htext hps (forall₂_of_runIn_mapM htexts)
    dsimp only at h
    split at h
    · obtain ⟨rfl, -⟩ := LowerM.runIn_pure_eq_ok h
      exact ⟨before, after, hbody⟩
    · obtain ⟨rfl, -⟩ := LowerM.runIn_pure_eq_ok h
      refine ⟨"(function() " ++ "; ".intercalate ((bound.filterMap id).map fun b =>
          "local " ++ b.name ++ " = " ++ b.value) ++ "; return " ++ before, after ++ " end)()", ?_⟩
      rw [Fragment.atom, withLocals, hbody]
      simp only [String.append_assoc]

end

end Template

/-! ### Texts of the program -/

/-- A text of the program as patterns spell it: the quoted name of a type or of a method, the way along
fields, and that to a property of the host. -/
inductive Spelling (V : Vocabulary) : String → Prop where
  | type {t : GoType} (h : t.Spelled V) : Spelling V (quote t.text)
  | method {selection : Selection} (h : selection.Plain V) : Spelling V (quote selection.obj.name)
  | fields {path : FieldPath} (h : path.Spelled V) : Spelling V (accessChain path.names)
  | property {path : FieldPath} (h : path.Spelled V) {holder tag : String}
    (hhost : path.host = some (holder, tag)) :
    Spelling V (accessChain (path.names.dropLast ++ [holder]) ++ "[" ++ quote tag ++ "]")

/-- What is spelled where texts need not be strict is inert. -/
theorem Spelling.inert {V : Vocabulary} (hloose : ¬ V.strict) {text : String} (h : Spelling V text) :
    Inert text := by
  cases h with
  | type h => exact inert_quote h.inert
  | method h => exact inert_quote h.inert
  | fields h => exact inert_accessChain h.inert
  | @property path h holder tag hhost =>
    obtain ⟨-, hholder, htag⟩ := h.host holder tag hhost
    have hnames : ∀ name ∈ path.names.dropLast ++ [holder], Inert name := by
      intro name hname
      rcases List.mem_append.mp hname with hname | hname
      · exact h.inert name (List.dropLast_subset _ hname)
      · exact List.mem_singleton.mp hname ▸ hholder
    exact inert_bracketed (inert_append (inert_accessChain hnames) (by decide))
      (inert_quote (htag hloose)) (by decide)

/-- **A program with inert texts.** -/
def Vocabulary.inert : Vocabulary where
  name _ := True
  code _ := True
  strict := False
  failure e := e.isMalformed = false
  safe _ := trivial
  unboxed _ := trivial
  spelled := fun _ _ _ => trivial
  quiet h := h.elim
  failing {e} h := by
    cases hmalformed : e.isMalformed with
    | false => rfl
    | true => exact (h hmalformed).elim

/-! ### Properties of the host -/

section

variable {self : Lowering} {env : Env} {s s' : FunctionState} {base : Expr} {b : Fragment}

namespace Template

/-- Characters of a pattern that are no percent signs are at most one literal. -/
theorem foldr_consChar_eq (cs : List Char) :
    cs.foldr consChar [] = [] ∧ cs = [] ∨ cs.foldr consChar [] = [.literal cs] := by
  induction cs with
  | nil => exact .inl ⟨rfl, rfl⟩
  | cons c cs ih =>
    refine .inr ?_
    rcases ih with ⟨hnone, rfl⟩ | hone
    · rfl
    · rw [List.foldr_cons, hone, consChar]

/-- Characters alone are written as they are. -/
theorem fixed_foldr_consChar {pattern : String} {named : List (Operand × Option String)}
    (cs : List Char) :
    Fixed self env pattern named (cs.foldr consChar []) (String.ofList cs) := by
  rcases foldr_consChar_eq cs with ⟨hnone, rfl⟩ | hone
  · exact fixed_nil
  · rw [hone]
    exact fixed_literal cs

/-- A placeholder ends the literal before it. -/
theorem foldr_consChar_placeholder (cs digits : List Char) (i : Nat) (tag : Tag) (ps : List Piece) :
    cs.foldr consChar (.placeholder digits i tag :: ps) =
      cs.foldr consChar [] ++ .placeholder digits i tag :: ps := by
  induction cs with
  | nil => rfl
  | cons c cs ih =>
    rw [List.foldr_cons, List.foldr_cons, ih]
    rcases foldr_consChar_eq cs with ⟨hnone, -⟩ | hone
    · rw [hnone]
      rfl
    · rw [hone]
      rfl

/-- They evaluate nothing. -/
theorem evaluated_foldr_consChar (cs : List Char) : evaluated (cs.foldr consChar []) = [] := by
  rcases foldr_consChar_eq cs with ⟨hnone, -⟩ | hone
  · rw [hnone]
    rfl
  · rw [hone]
    rfl

/-- The pieces of a pattern that is inert but for one operand. -/
theorem parse_around {front back : String} (hfront : Inert front) (hback : Inert back) :
    parse 1 (front ++ "%e" ++ back) = .ok (front.toList.foldr consChar [] ++
      .placeholder [] 0 .expression :: back.toList.foldr consChar []) := by
  have hbehind : pieces 1 1 none back.toList = .ok (back.toList.foldr consChar []) := by
    rw [← List.append_nil back.toList, pieces_inert hback, List.append_nil]
    rfl
  have hplace : pieces 1 0 none ("%e" ++ back).toList =
      .ok (.placeholder [] 0 .expression :: back.toList.foldr consChar []) := by
    refine (parse_behind back).trans ?_
    rw [hbehind]
    rfl
  rw [parse, String.append_assoc, String.toList_append, pieces_inert hfront]
  change (pieces 1 0 none ("%e" ++ back).toList).map _ = _
  rw [hplace, ← foldr_consChar_placeholder]
  rfl

/-- The operand is evaluated once. -/
theorem nodup_evaluated_around (front back : List Char) :
    (evaluated (front.foldr consChar [] ++
      .placeholder [] 0 .expression :: back.foldr consChar [])).Nodup := by
  have hplaces : evaluated (front.foldr consChar [] ++
      .placeholder [] 0 .expression :: back.foldr consChar []) =
        evaluated (front.foldr consChar []) ++ 0 :: evaluated (back.foldr consChar []) :=
    List.filterMap_append
  rw [hplaces, evaluated_foldr_consChar, evaluated_foldr_consChar]
  exact List.nodup_singleton 0

/-- **Inert text around an operand** is written around it. -/
theorem runIn_renderAs_around {front back : String} (hfront : Inert front) (hback : Inert back)
    (hbase : (self base none).runIn env s = (.ok b, s')) (parens : Bool) :
    (renderAs parens self (front ++ "%e" ++ back) [base]).runIn env s =
      (.ok ⟨front ++ env.written s base b ++ back, parens⟩, s') := by
  refine (runIn_renderAs_one [.expr base] _ _ (parse_around hfront hback)
    (nodup_evaluated_around _ _) rfl (fixed_foldr_consChar _) (Puts.expression hbase)
    (fixed_foldr_consChar _) parens).trans ?_
  rw [String.ofList_toList, String.ofList_toList]

/-- Inert text around an operand that has been lowered already. -/
theorem runIn_render_around_lowered {front back : String} (hfront : Inert front)
    (hback : Inert back) :
    (render self (front ++ "%e" ++ back) [b]).runIn env s =
      (.ok (.atom (front ++ b.operand ++ back)), s) := by
  have hliteral (cs : List Char) : Fixed self env (front ++ "%e" ++ back) (withNames [.lowered b] [])
      (cs.foldr consChar []) (String.ofList cs) := fixed_foldr_consChar cs
  obtain ⟨fs, hfs, hfronts⟩ := hliteral front.toList
  obtain ⟨bs, hbs, hbacks⟩ := hliteral back.toList
  have hput : (pieceText self (front ++ "%e" ++ back) (withNames [.lowered b] [])
      (.placeholder [] 0 .expression)).runIn env s = (.ok b.operand, s) := rfl
  have hpieces := runIn_pieces_append (hfronts s) (runIn_pieces_cons hput (hbacks s))
  have hparse : parse [Operand.lowered b].length (front ++ "%e" ++ back) = .ok _ :=
    parse_around hfront hback
  refine (runIn_renderAs_inline hparse (nodup_evaluated_around _ _) hpieces false).trans ?_
  rw [String.join_append, String.join_cons, hfs, hbs, String.ofList_toList, String.ofList_toList,
    String.append_assoc]
  rfl

/-- Inert text behind an operand. -/
theorem runIn_render_behind {access : String} (haccess : Inert access)
    (hbase : (self base none).runIn env s = (.ok b, s')) :
    (render self ("%e" ++ access) [base]).runIn env s =
      (.ok (.atom (env.written s base b ++ access)), s') := by
  have hempty : Inert "" := by decide
  have h := runIn_renderAs_around hempty haccess hbase false
  rwa [String.empty_append, String.empty_append] at h

end Template

namespace Lower

/-- A path that is resolved is found without a change of the state. -/
theorem runIn_pathFrom_of_resolved {type : GoType} {index : List Nat} {span : Span} {path : FieldPath}
    (h : resolvePath env.config type index = .ok path) :
    (pathFrom type index span).runIn env s = (.ok path, s) := by
  rw [pathFrom, LowerM.runIn_bind_ok (runIn_config ..), h]
  rfl

/-- A field is read from the base by the way to it. -/
theorem runIn_field_plain {selection : Selection} {span : Span} {path : FieldPath}
    (hnames : ∀ name ∈ path.names, Inert name)
    (hpath : resolvePath env.config selection.recv selection.index = .ok path)
    (hhost : path.host = none) (hbase : (self base none).runIn env s = (.ok b, s')) :
    (field self base selection span).runIn env s =
      (.ok (.atom (env.written s base b ++ accessChain path.names)), s') := by
  rw [field, LowerM.runIn_bind_ok (runIn_pathFrom_of_resolved hpath), hhost]
  exact Template.runIn_render_behind (inert_accessChain hnames) hbase

/-- A field that stands for a property is read from the object, and internalized. -/
theorem runIn_field_host {selection : Selection} {span : Span} {path : FieldPath}
    {holder tag : String}
    (hinert : Inert (accessChain (path.names.dropLast ++ [holder]) ++ "[" ++ quote tag ++ "]"))
    (hpath : resolvePath env.config selection.recv selection.index = .ok path)
    (hhost : path.host = some (holder, tag)) (hbase : (self base none).runIn env s = (.ok b, s')) :
    (field self base selection span).runIn env s =
      (.ok (internalized env.config (.atom (env.written s base b ++
        (accessChain (path.names.dropLast ++ [holder]) ++ "[" ++ quote tag ++ "]"))) path.type),
      s') := by
  rw [field, LowerM.runIn_bind_ok (runIn_pathFrom_of_resolved hpath), hhost]
  dsimp only
  rw [LowerM.runIn_bind_ok (Template.runIn_render_behind hinert hbase)]
  rfl

/-- **Properties are read by their tags.** A field that stands for a property of a host object is read
from the object by the way to its holder and the quoted tag. -/
theorem runIn_field_property {V : Vocabulary} (hloose : ¬ V.strict) {selection : Selection}
    {span : Span} {path : FieldPath} {holder tag : String} (hselection : selection.recv.Spelled V)
    (hpath : resolvePath env.config selection.recv selection.index = .ok path)
    (hhost : path.host = some (holder, tag)) (hbase : (self base none).runIn env s = (.ok b, s')) :
    (field self base selection span).runIn env s =
      (.ok (internalized env.config (.atom (env.written s base b ++
        (accessChain (path.names.dropLast ++ [holder]) ++ "[" ++ quote tag ++ "]"))) path.type),
      s') :=
  runIn_field_host ((Spelling.property (spelled_resolvePath hselection hpath) hhost).inert hloose) hpath
    hhost hbase

end Lower

end

/-! ### Sessions -/

/-- **Inert texts never get in the way.** Whatever requests there have been for programs with inert
texts, with whatever outcomes: no further request finds a malformed pattern. What such programs bring
into a pattern is written as it is, and a property of a host object is read from its holder by its
quoted tag. -/
theorem Session.inert_verbatim {actions : List Action} {env : Env} {request : Request}
    (hactions : ∀ action ∈ actions, action.Plain .inert) (henv : env.Plain .inert)
    (hrequest : request.Plain .inert) :
    (∀ e, (request.run.runIn env (actions.foldl act {}).state).1 = .error e →
        e.isMalformed = false) ∧
      (∀ text, Spelling .inert text → ∀ (self : Lowering) (parens : Bool) (operands : List Operand)
        (front back : String) (s s' : FunctionState) (f : Fragment),
        (Template.parse operands.length front).isOk →
          (Template.renderAs parens self (front ++ text ++ back) operands).runIn env s = (.ok f, s') →
            ∃ before after, f.text = before ++ text ++ after) ∧
      ∀ (self : Lowering) (base : Expr) (selection : Selection) (span : Span) (path : FieldPath)
        (holder tag : String) (s s' : FunctionState) (b : Fragment),
        selection.recv.Spelled .inert →
          resolvePath env.config selection.recv selection.index = .ok path →
            path.host = some (holder, tag) → (self base none).runIn env s = (.ok b, s') →
              (Lower.field self base selection span).runIn env s =
                (.ok (internalized env.config (.atom (env.written s base b ++
                  (accessChain (path.names.dropLast ++ [holder]) ++ "[" ++ quote tag ++ "]")))
                  path.type), s') := by
  have hloose : ¬ Vocabulary.strict .inert := id
  refine ⟨fun e he => ?_, fun text htext self parens operands front back s s' f hfront h => ?_,
    fun self base selection span path holder tag s s' b hselection hpath hhost hbase => ?_⟩
  -- First the answers to requests, then any pattern, then the read of a host property.
  · exact ((sound_new.foldl hloose hactions).answer hloose henv hrequest).failure e he
  · exact Template.renderAs_verbatim hfront (htext.inert hloose) h
  · exact runIn_field_property hloose hselection hpath hhost hbase

/-- A struct with a property of the host object that its first field holds. -/
def paymentType (tag : String) : GoType :=
  .named "main.Payment" (.struct
    [{ name := "object", type := .pointer (.named "github.com/gopherjs/gopherjs/js.Object" (.struct [])) },
      { name := "share", type := .basic .string, hostTag := some tag }])

/-- `payment.share` -/
def propertyOf (tag : String) : Build Expr := do
  Build.field (← Build.var "payment" (paymentType tag)) 1

/-- A host whose objects are reached, and what is known of `payment.share`. -/
def propertyEnv (tag : String) : Env :=
  { facts := ((propertyOf tag).run {}).2.facts, config := { host := some {} } }

theorem spelled_paymentType : (paymentType "share").Spelled .inert := by
  have hobject : (GoType.named "github.com/gopherjs/gopherjs/js.Object" (.struct [])).Spelled
      .inert :=
    .intro ⟨by decide, fun h => by cases h⟩ fun p hp => by
      obtain rfl := List.mem_singleton.mp hp
      exact .intro ⟨by decide, fun h _ hf => by cases h; cases hf⟩ (List.forall_mem_nil _)
  refine .intro ⟨by decide, fun h => by cases h⟩ fun p hp => ?_
  obtain rfl := List.mem_singleton.mp hp
  refine .intro ⟨by decide, fun {fields} h => ?_⟩ ?_
  · cases h
    simp only [List.forall_mem_cons]
    exact ⟨⟨fun _ => trivial, by decide, fun _ h => by cases h⟩,
      ⟨fun _ => trivial, by decide, fun t h _ => by cases h; decide⟩, List.forall_mem_nil _⟩
  · change ∀ p ∈ [GoType.pointer _, .basic .string], _
    simp only [List.forall_mem_cons]
    exact ⟨hobject.pointer, GoType.Spelled.basic .string, List.forall_mem_nil _⟩

theorem plain_propertyEnv : (propertyEnv "share").Plain .inert := by
  refine ⟨Facts.plain_of_forall ?_ (List.forall_mem_nil _) ?_ ?_, fun _ h => by cases h⟩
  · change ∀ t ∈ [paymentType "share", .basic .string, .basic .string], _
    simp only [List.forall_mem_cons]
    exact ⟨spelled_paymentType, GoType.Spelled.basic .string, GoType.Spelled.basic .string,
      List.forall_mem_nil _⟩
  · change ∀ obj ∈ [Object.var "payment" _], _
    simp only [List.forall_mem_cons]
    exact ⟨⟨trivial, fun _ h => by cases h⟩, List.forall_mem_nil _⟩
  · intro selection hselection
    obtain rfl := List.mem_singleton.mp hselection
    exact ⟨spelled_paymentType, trivial, by decide⟩

/-- The share of a payment, once more after it has been lowered, and by itself. -/
theorem Session.inert_verbatim_share :
    let env := propertyEnv "share"
    let request := Request.expression ((propertyOf "share").run {}).1 none
    let payment := ((Build.var "payment" (paymentType "share")).run {}).1
    let selection : Selection :=
      { kind := .fieldVal, recv := paymentType "share", index := [1],
        obj := .var "share" (.basic .string), type := .basic .string }
    (∀ e, (request.run.runIn env ([.run env request, .drain].foldl act {}).state).1 = .error e →
        e.isMalformed = false) ∧
      (∀ f s', (render lower ("%e:is(" ++ quote "main.Payment" ++ ")") [payment]).runIn env {} =
        (.ok f, s') → ∃ before after, f.text = before ++ quote "main.Payment" ++ after) ∧
      ∃ s', (Lower.field lower payment selection payment.span).runIn env {} =
        (.ok (.atom "__internalize(payment.object[\"share\"], \"string\")"), s') := by
  intro env request payment selection
  have hactions : ∀ action ∈ [Action.run env request, .drain], action.Plain .inert := by
    simp only [List.forall_mem_cons]
    exact ⟨⟨plain_propertyEnv, trivial⟩, trivial, List.forall_mem_nil _⟩
  have hrequest : request.Plain .inert := trivial
  obtain ⟨hsound, hverbatim, hproperty⟩ := inert_verbatim hactions plain_propertyEnv hrequest
  refine ⟨hsound, fun f s' h => ?_, ?_⟩
  · exact hverbatim _ (.type spelled_paymentType) lower false [payment] "%e:is(" ")" {} s' f rfl h
  · have htext : ((lower payment none).runIn env {}).1.toOption = some (.atom "payment") := by
      decide +kernel
    obtain ⟨b, s', hbase⟩ := LowerM.exists_runIn_eq_ok (show ((lower payment none).runIn env {}).1.isOk
      by decide +kernel)
    rw [hbase] at htext
    obtain rfl := Option.some.inj htext
    have hpath : resolvePath env.config selection.recv selection.index =
        .ok ⟨["share"], .basic .string, some ("object", "share")⟩ := rfl
    have hfragment : internalized env.config (.atom (env.written {} payment (.atom "payment") ++
        (accessChain (["share"].dropLast ++ ["object"]) ++ "[" ++ quote "share" ++ "]")))
        (.basic .string) = .atom "__internalize(payment.object[\"share\"], \"string\")" := by
      decide +kernel
    refine ⟨s', (hproperty lower payment selection payment.span _ "object" "share" {} s' _
      spelled_paymentType hpath rfl hbase).trans ?_⟩
    rw [hfragment]

/-- The percent signs of a tag are taken for those of placeholders: lowering fails, or another property
is read. -/
theorem Lower.tags_not_verbatim :
    (match ((lower ((propertyOf "50%").run {}).1 none).runIn (propertyEnv "50%") {}).1 with
      | .ok _ => false
      | .error e => e.isMalformed) = true ∧
    ((lower ((propertyOf "100%%").run {}).1 none).runIn (propertyEnv "100%%") {}).1.toOption =
      some (.atom "__internalize(payment.object[\"100%\"], \"string\")") := by
  decide +kernel

end GoLua
