import GoLua.Proofs.Template.Evaluation

/-!
# Pieces as they are written

A piece that is rendered is written in one of the ways that `Writes` lists (`writes_of_pieceText`):
as it is, by the name of a local, by a constant value, or by lowering its operand once. The tags
differ in what they take of an operand and in what they put around it.
-/

namespace GoLua.Template

open Lua Lower

/-! ### Placeholders -/

section

variable {self : Lowering} {env : Env} {s s' : FunctionState} {pattern text : String} {tag : Tag}
  {o : Operand} {bound : Option String}

/-- Tags of texts and operators write them without looking at the state. -/
theorem plain_of_placeholderText (htag : tag.evaluates = false)
    (h : (placeholderText self pattern tag o bound).runIn env s = (.ok text, s')) :
    tag.plainText? o = some text ∧ s' = s := by
  cases tag with
  | text | integer | operator =>
    -- An operand that the tag does not fit is not written at all.
    cases o <;> first
      | exact ⟨congrArg some (Except.ok.inj (Prod.mk.inj h).1), (Prod.mk.inj h).2.symm⟩
      | cases (Prod.mk.inj h).1
  | _ => cases htag

/-- A part of an operand is a part of its constant value, or is taken of the operand where it is
written. -/
inductive WritesPart (self : Lowering) (env : Env) (s : FunctionState) (pattern : String) (tag : Tag)
    (o : Operand) (bound : Option String) : String → FunctionState → Prop where
  | constant {text : String} (value : valueText? env s tag o = some text) :
      WritesPart self env s pattern tag o bound text s
  | around {base : String} {s' : FunctionState} (needed : valueText? env s tag o = none)
      (run : (operandText self pattern tag o bound).runIn env s = (.ok base, s')) :
      WritesPart self env s pattern tag o bound (tag.around (isSigned env s o) base) s'

/-- Whether an operand is signed depends on its type only. -/
theorem isSigned_of_typeOf {e : Expr} {signed : Bool}
    (h : ((fun t : GoType => !t.isUnsigned) <$> typeOf e).runIn env s = (.ok signed, s')) :
    signed = isSigned env s (.expr e) ∧ s' = s := by
  rw [map_eq_pure_bind] at h
  obtain ⟨t, htype, rfl⟩ := LowerM.runIn_map_eq_ok h
  rw [runIn_typeOf] at htype
  obtain ⟨hfound, rfl⟩ := Prod.mk.inj htype
  refine ⟨?_, rfl⟩
  rw [isSigned]
  cases hknown : env.type? s e.id with
  | none =>
    rw [hknown] at hfound
    cases hfound
  | some t' =>
    rw [hknown] at hfound
    rw [← Except.ok.inj hfound]
    rfl

/-- The half of an operand is a known constant, or stands around its text. -/
theorem writesPart_of_halfText (htag : tag = .high ∨ tag = .low)
    (h : (halfText self pattern tag o bound).runIn env s = (.ok text, s')) :
    WritesPart self env s pattern tag o bound text s' := by
  have haround (signed : Bool) (base : String) : tag.around signed base =
      if tag == .high then
        if signed then callText Support.arshift [base, "32"] else "(" ++ base ++ " >> 32)"
      else "(" ++ base ++ " & 0xFFFFFFFF)" := by
    rcases htag with rfl | rfl <;> rfl
  cases o with
  | expr e =>
    obtain ⟨signed, s₁, hsigned, h⟩ := LowerM.runIn_bind_eq_ok h
    obtain ⟨rfl, rfl⟩ := isSigned_of_typeOf hsigned
    have hvalue : valueText? env s₁ tag (.expr e) =
        ((env.constant? s₁ e.id).bind Constant.toInt?).map fun n => toString
          (if tag == .high then highWord (isSigned env s₁ (.expr e)) n else lowWord n) := by
      rw [valueText?]
      rcases htag with rfl | rfl <;> cases env.constant? s₁ e.id <;> rfl
    rw [LowerM.runIn_bind_ok (runIn_intConstantOf env s₁ e)] at h
    cases hn : (env.constant? s₁ e.id).bind Constant.toInt? with
    | none =>
      rw [hn] at h hvalue
      obtain ⟨base, hbase, rfl⟩ := LowerM.runIn_map_eq_ok h
      rw [← haround]
      exact .around hvalue hbase
    | some n =>
      rw [hn] at h hvalue
      obtain ⟨rfl, rfl⟩ := LowerM.runIn_pure_eq_ok h
      exact .constant hvalue
  | _ =>
    -- Only an expression has a sign and perhaps a value.
    obtain ⟨signed, s₁, hsigned, h⟩ := LowerM.runIn_bind_eq_ok h
    obtain ⟨rfl, rfl⟩ := LowerM.runIn_pure_eq_ok hsigned
    obtain ⟨constant, s₂, hconstant, h⟩ := LowerM.runIn_bind_eq_ok h
    obtain ⟨rfl, rfl⟩ := LowerM.runIn_pure_eq_ok hconstant
    obtain ⟨base, hbase, rfl⟩ := LowerM.runIn_map_eq_ok h
    rw [← haround]
    exact .around rfl hbase

/-- So is a part of a complex number. -/
theorem writesPart_of_partText (htag : tag = .realPart ∨ tag = .imagPart)
    (h : (partText self pattern tag o bound).runIn env s = (.ok text, s')) :
    WritesPart self env s pattern tag o bound text s' := by
  have haround (signed : Bool) (base : String) :
      tag.around signed base = base ++ if tag == .realPart then ".real" else ".imag" := by
    rcases htag with rfl | rfl <;> rfl
  -- Of an expression the part may be known; a fragment is never known.
  cases o with
  | expr e =>
    rw [partText, LowerM.runIn_bind_ok (runIn_constantOf env s e)] at h
    have hvalue : valueText? env s tag (.expr e) =
        ((env.constant? s e.id).bind fun c => if tag == .realPart then c.re? else c.im?).map
          floatLiteral := by
      rw [valueText?]
      rcases htag with rfl | rfl <;> cases env.constant? s e.id <;> rfl
    cases hx : (env.constant? s e.id).bind fun c => if tag == .realPart then c.re? else c.im? with
    | none =>
      simp only [hx] at h
      rw [hx] at hvalue
      obtain ⟨base, hbase, rfl⟩ := LowerM.runIn_map_eq_ok h
      rw [← haround (isSigned env s (.expr e))]
      exact .around hvalue hbase
    | some x =>
      simp only [hx] at h
      rw [hx] at hvalue
      obtain ⟨rfl, rfl⟩ := LowerM.runIn_pure_eq_ok h
      exact .constant hvalue
  | _ =>
    obtain ⟨constant, s₁, hconstant, h⟩ := LowerM.runIn_bind_eq_ok h
    obtain ⟨rfl, rfl⟩ := LowerM.runIn_pure_eq_ok hconstant
    obtain ⟨base, hbase, rfl⟩ := LowerM.runIn_map_eq_ok h
    rw [← haround false]
    exact .around rfl hbase

/-- A bound operand is written by its name, whatever the tag takes of it. -/
theorem name_of_placeholderText {name : String} (htag : tag.evaluates = true)
    (ho : o.isRepeatable (env.isConstant s) = false)
    (h : (placeholderText self pattern tag o (some name)).runIn env s = (.ok text, s')) :
    text = tag.around (isSigned env s o) name ∧ s' = s := by
  -- A bound operand is not known, so no tag replaces the name by a value.
  have hvalue : valueText? env s tag o = none := by
    cases o with
    | expr e =>
      have hnone : env.constant? s e.id = none := by
        simpa [Env.isConstant] using (Bool.or_eq_false_iff.mp ho).2
      rw [valueText?, hnone]
      rfl
    | _ => rfl
  have hpart (h : WritesPart self env s pattern tag o (some name) text s') :
      text = tag.around (isSigned env s o) name ∧ s' = s := by
    cases h with
    | constant value => simp [hvalue] at value
    | around _ run =>
      obtain ⟨rfl, rfl⟩ := LowerM.runIn_pure_eq_ok run
      exact ⟨rfl, rfl⟩
  cases tag with
  | expression | folded =>
    obtain ⟨rfl, rfl⟩ := LowerM.runIn_pure_eq_ok h
    exact ⟨rfl, rfl⟩
  | high => exact hpart (writesPart_of_halfText (.inl rfl) h)
  | low => exact hpart (writesPart_of_halfText (.inr rfl) h)
  | realPart => exact hpart (writesPart_of_partText (.inl rfl) h)
  | imagPart => exact hpart (writesPart_of_partText (.inr rfl) h)
  | _ => cases htag

section

variable {operands : List Operand} {bindings : List (Nat × LocalBinding)} {digits : List Char}
  {i : Nat}

/-- A part that is taken of an unbound operand: the operand is lowered for it once at most. -/
theorem writes_of_writesPart (htag : tag.evaluates = true)
    (hbase : ∀ constant value, tag.base constant value = value.operand)
    (hoperand : operands[i]? = some o) (hunbound : i ∉ bindings.map Prod.fst)
    (h : WritesPart self env s pattern tag o none text s') :
    ∃ places, Writes self env operands bindings s (.placeholder digits i tag) text places s' := by
  cases h with
  | constant value => exact ⟨[], .constant htag hoperand hunbound value⟩
  | around needed run =>
    cases o with
    | expr e =>
      obtain ⟨value, hrun, rfl⟩ := LowerM.runIn_map_eq_ok run
      rw [← hbase (env.constant? s e.id).isSome value]
      exact ⟨[i], .expr htag hoperand hunbound needed hrun⟩
    | lowered f =>
      obtain ⟨rfl, rfl⟩ := LowerM.runIn_pure_eq_ok run
      exact ⟨[], .lowered htag hoperand hunbound⟩
    | _ => cases (Prod.mk.inj run).1

/-- A whole expression is written by its integer value where that is asked for, and is lowered
otherwise. -/
theorem writes_of_expressionText {e : Expr} (htag : tag = .expression ∨ tag = .folded)
    (hoperand : operands[i]? = some (.expr e)) (hunbound : i ∉ bindings.map Prod.fst)
    (h : (expressionText self (tag == .folded) e).runIn env s = (.ok text, s')) :
    ∃ places, Writes self env operands bindings s (.placeholder digits i tag) text places s' := by
  have hevaluates : tag.evaluates = true := by rcases htag with rfl | rfl <;> rfl
  have haround (signed : Bool) (base : String) : tag.around signed base = base := by
    rcases htag with rfl | rfl <;> rfl
  have hbase (constant : Bool) (value : Fragment) :
      tag.base constant value = if constant then value.text else value.operand := by
    rcases htag with rfl | rfl <;> rfl
  have hvalue (c : Constant) (hc : env.constant? s e.id = some c) : valueText? env s tag (.expr e) =
      if tag == .folded then c.toInt?.map intLiteral else none := by
    rw [valueText?, hc]
    rcases htag with rfl | rfl <;> rfl
  have hlowered (value : Fragment) (s' : FunctionState)
      (hneeded : valueText? env s tag (.expr e) = none)
      (hrun : (self e none).runIn env s = (.ok value, s')) :
      Writes self env operands bindings s (.placeholder digits i tag)
        (if (env.constant? s e.id).isSome then value.text else value.operand) [i] s' := by
    rw [← hbase, ← haround (isSigned env s (.expr e)) (tag.base _ value)]
    exact .expr hevaluates hoperand hunbound hneeded hrun
  rw [expressionText, LowerM.runIn_bind_ok (runIn_constantOf env s e)] at h
  cases hc : env.constant? s e.id with
  | none =>
    rw [hc] at h hlowered
    obtain ⟨value, hrun, rfl⟩ := LowerM.runIn_map_eq_ok h
    exact ⟨[i], hlowered value s' (by rw [valueText?, hc]; rfl) hrun⟩
  | some c =>
    rw [hc] at h hlowered
    dsimp only at h
    split at h
    · next n hfolded hn =>
      -- The decimal of an integer takes no lowering.
      obtain ⟨rfl, rfl⟩ := LowerM.runIn_pure_eq_ok h
      exact ⟨[], .constant hevaluates hoperand hunbound (by rw [hvalue c hc, hfolded, hn]; rfl)⟩
    · next hother =>
      obtain ⟨value, hrun, rfl⟩ := LowerM.runIn_map_eq_ok h
      refine ⟨[i], hlowered value s' ?_ hrun⟩
      rw [hvalue c hc]
      split
      · next hfolded =>
        cases hn : c.toInt? with
        | none => rfl
        | some n => exact absurd hn (hother n hfolded)
      · rfl

/-- A placeholder of an operand that is not bound lowers it, or writes the text it has. -/
theorem writes_of_placeholderText (htag : tag.evaluates = true) (hoperand : operands[i]? = some o)
    (hunbound : i ∉ bindings.map Prod.fst)
    (h : (placeholderText self pattern tag o none).runIn env s = (.ok text, s')) :
    ∃ places, Writes self env operands bindings s (.placeholder digits i tag) text places s' := by
  have hpart (hbase : ∀ constant value, tag.base constant value = value.operand)
      (h : WritesPart self env s pattern tag o none text s') :
      ∃ places, Writes self env operands bindings s (.placeholder digits i tag) text places s' :=
    writes_of_writesPart htag hbase hoperand hunbound h
  -- Whole operands are lowered in place; halves and parts stand around one.
  cases tag with
  | expression | folded =>
    cases o with
    | expr e => first
      | exact writes_of_expressionText (.inl rfl) hoperand hunbound h
      | exact writes_of_expressionText (.inr rfl) hoperand hunbound h
    | lowered f =>
      obtain ⟨rfl, rfl⟩ := LowerM.runIn_pure_eq_ok h
      exact ⟨[], .lowered htag hoperand hunbound⟩
    | _ => cases (Prod.mk.inj h).1
  | high => exact hpart (fun _ _ => rfl) (writesPart_of_halfText (.inl rfl) h)
  | low => exact hpart (fun _ _ => rfl) (writesPart_of_halfText (.inr rfl) h)
  | realPart => exact hpart (fun _ _ => rfl) (writesPart_of_partText (.inl rfl) h)
  | imagPart => exact hpart (fun _ _ => rfl) (writesPart_of_partText (.inr rfl) h)
  | _ => cases htag

end

end

/-! ### Pieces -/

section

variable {env : Env} {operands : List Operand} {bound : List (Option LocalBinding)}
  {s s' : FunctionState} {pattern : String} {n : Nat} {p : Prices}

/-- A place has the name of its local, and no name if it is not bound. -/
theorem bound_of_withNames {i : Nat} {o : Operand} {name? : Option String}
    (h : (withNames operands bound)[i]? = some (o, name?)) :
    operands[i]? = some o ∧ (name? = none → i ∉ (placed 0 bound).map Prod.fst) ∧
      ∀ name, name? = some name → ∃ b, (i, b) ∈ placed 0 bound ∧ b.name = name := by
  -- The name at an index is that of the binding placed there.
  rw [withNames, List.getElem?_map, List.getElem?_zipIdx] at h
  cases ho : operands[i]? with
  | none => simp [ho] at h
  | some o' =>
    simp only [ho, Option.map_some, Option.some.injEq, Prod.mk.injEq, Nat.zero_add] at h
    obtain ⟨rfl, rfl⟩ := h
    refine ⟨rfl, fun hnone hi => ?_, fun name hname => ?_⟩
    · obtain ⟨⟨_, b⟩, hmem, rfl⟩ := List.mem_map.mp hi
      rw [mem_placed.mp hmem] at hnone
      cases hnone
    · rcases hb : bound[i]? with _ | _ | b <;> rw [hb] at hname
      · cases hname
      · cases hname
      · exact ⟨b, mem_placed.mpr hb, Option.some.inj hname⟩

/-- A piece writes text, or what its placeholder stands for. -/
theorem writes_of_pieceText {self : Lowering} {q : Piece} {text : String}
    (hsingle : ∀ i ∈ (placed 0 bound).map Prod.fst, isSingle env s operands i)
    (h : (pieceText self pattern (withNames operands bound) q).runIn env s = (.ok text, s')) :
    ∃ places, Writes self env operands (placed 0 bound) s q text places s' := by
  cases q with
  | literal | percent =>
    obtain ⟨rfl, rfl⟩ := LowerM.runIn_pure_eq_ok h
    exact ⟨[], by constructor⟩
  | placeholder digits i tag =>
    rw [pieceText] at h
    cases hoperand : (withNames operands bound)[i]? with
    | none =>
      rw [hoperand] at h
      cases (Prod.mk.inj h).1
    | some o =>
      obtain ⟨o, name?⟩ := o
      rw [hoperand] at h
      obtain ⟨ho, hunbound, hbound⟩ := bound_of_withNames hoperand
      cases htag : tag.evaluates with
      | false =>
        obtain ⟨hplain, rfl⟩ := plain_of_placeholderText htag h
        exact ⟨[], .plain htag ho hplain⟩
      | true =>
        cases name? with
        | none => exact writes_of_placeholderText htag ho (hunbound rfl) h
        | some name =>
          -- What is bound is single and so no constant, whose value might be written instead.
          obtain ⟨b, hb, rfl⟩ := hbound name rfl
          have hi := hsingle i (List.mem_map_of_mem hb)
          rw [isSingle, ho] at hi
          obtain ⟨rfl, rfl⟩ := name_of_placeholderText htag (by simpa using hi) h
          exact ⟨[], .name htag ho hb⟩

/-- The pieces are written one after the other, all with the same names. -/
theorem writesAll_of_mapM {ps : List Piece} {texts : List String} (hs : Ready p env s)
    (hsingle : ∀ i ∈ (placed 0 bound).map Prod.fst, isSingle env s operands i)
    (h : (ps.mapM (pieceText (within n) pattern (withNames operands bound))).runIn env s =
      (.ok texts, s')) :
    ∃ places, WritesAll (within n) env operands (placed 0 bound) s ps texts places s' := by
  induction ps generalizing s texts with
  | nil =>
    obtain ⟨rfl, rfl⟩ := LowerM.runIn_pure_eq_ok h
    exact ⟨[], .nil⟩
  | cons q ps ih =>
    obtain ⟨text, s₁, rest, hhead, htail, rfl⟩ := LowerM.runIn_mapM_cons_eq_ok h
    obtain ⟨places, hwrites⟩ := writes_of_pieceText hsingle hhead
    have hsteady := hwrites.steady hs
    obtain ⟨places', hrest⟩ := ih (hs.steady hsteady)
      (fun i hi => by rw [isSingle_steady hsteady]; exact hsingle i hi) htail
    exact ⟨places ++ places', .cons hwrites hrest⟩

end

end GoLua.Template
