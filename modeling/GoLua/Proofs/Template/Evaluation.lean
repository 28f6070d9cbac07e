import GoLua.Proofs.Law

/-!
# The runs behind a template

Rendering a template binds some operands to locals, one after the other (`BindsAll`), and then writes
the pieces of its pattern in order (`WritesAll`). The relations of this module say of each such step
which operand it lowers, if any, what it writes and in which state it leaves the function. The places
of the operands that are lowered for pieces are noted, so that they can be counted.
-/

namespace GoLua

/-- Whether a node is known to be a constant. -/
def Env.isConstant (env : Env) (s : FunctionState) (id : NodeId) : Bool :=
  (env.constant? s id).isSome

namespace Template

open Lua Lower

/-! ### What a tag writes -/

/-- What a tag that does not evaluate writes of an operand, if they fit. -/
def Tag.plainText? : Tag → Operand → Option String
  | .text, .text s => some s
  | .text, .lowered f => some f.operand
  | .text, .int n => some (toString n)
  | .integer, .int n => some (toString n)
  | .operator, .operator op => some op.luaToken
  | _, _ => none

/-- What a tag writes of a constant without lowering it. -/
def Tag.constantText? (signed : Bool) (c : Constant) : Tag → Option String
  | .folded => c.toInt?.map intLiteral
  | .high => c.toInt?.map fun n => toString (highWord signed n)
  | .low => c.toInt?.map fun n => toString (lowWord n)
  | .realPart => c.re?.map floatLiteral
  | .imagPart => c.im?.map floatLiteral
  | _ => none

/-- What a tag that evaluates writes around the text of an operand. -/
def Tag.around (signed : Bool) (base : String) : Tag → String
  | .high =>
    if signed then callText Support.arshift [base, "32"] else "(" ++ base ++ " >> 32)"
  | .low => "(" ++ base ++ " & 0xFFFFFFFF)"
  | .realPart => base ++ ".real"
  | .imagPart => base ++ ".imag"
  | _ => base

/-- What a tag takes of a lowered expression: a constant that is written whole needs no brackets. -/
def Tag.base (constant : Bool) (value : Fragment) : Tag → String
  | .expression | .folded => if constant then value.text else value.operand
  | _ => value.operand

/-- Whether the halves of an operand are those of a signed integer. -/
def isSigned (env : Env) (s : FunctionState) : Operand → Bool
  | .expr e => (env.type? s e.id).any fun t => !t.isUnsigned
  | _ => false

/-- What a tag writes of an operand by its constant value alone. -/
def valueText? (env : Env) (s : FunctionState) (tag : Tag) : Operand → Option String
  | .expr e => (env.constant? s e.id).bind (tag.constantText? (isSigned env s (.expr e)) ·)
  | _ => none

/-! ### Runs -/

/-- An operand is bound to a fresh local. -/
inductive Binds (self : Lowering) (env : Env) :
    Operand → FunctionState → LocalBinding → FunctionState → Prop where
  | expr {e : Expr} {s s' : FunctionState} {value : Fragment}
      (run : (self e none).runIn env s = (.ok value, s')) :
      Binds self env (.expr e) s ⟨(s'.newLocal "_t").1, value.text⟩ (s'.newLocal "_t").2
  | lowered {f : Fragment} {s : FunctionState} :
      Binds self env (.lowered f) s ⟨(s.newLocal "_t").1, f.text⟩ (s.newLocal "_t").2

/-- Operands are bound one after the other, each at its place. -/
inductive BindsAll (self : Lowering) (env : Env) (operands : List Operand) :
    FunctionState → List (Nat × LocalBinding) → FunctionState → Prop where
  | nil {s : FunctionState} : BindsAll self env operands s [] s
  | cons {s s₁ s' : FunctionState} {i : Nat} {o : Operand} {b : LocalBinding}
      {bound : List (Nat × LocalBinding)} (operand : operands[i]? = some o)
      (head : Binds self env o s b s₁) (tail : BindsAll self env operands s₁ bound s') :
      BindsAll self env operands s ((i, b) :: bound) s'

/-- A piece is written, and the places are noted whose operands are lowered for it. -/
inductive Writes (self : Lowering) (env : Env) (operands : List Operand)
    (bound : List (Nat × LocalBinding)) :
    FunctionState → Piece → String → List Nat → FunctionState → Prop where
  | literal {s : FunctionState} {text : List Char} :
      Writes self env operands bound s (.literal text) (String.ofList text) [] s
  | percent {s : FunctionState} : Writes self env operands bound s .percent "%" [] s
  /-- A tag that does not evaluate writes the operand as it is. -/
  | plain {s : FunctionState} {digits : List Char} {i : Nat} {tag : Tag} {o : Operand}
      {text : String} (tagged : tag.evaluates = false) (operand : operands[i]? = some o)
      (plain : tag.plainText? o = some text) :
      Writes self env operands bound s (.placeholder digits i tag) text [] s
  /-- A bound operand is written by its name. -/
  | name {s : FunctionState} {digits : List Char} {i : Nat} {tag : Tag} {o : Operand}
      {b : LocalBinding} (tagged : tag.evaluates = true) (operand : operands[i]? = some o)
      (isBound : (i, b) ∈ bound) :
      Writes self env operands bound s (.placeholder digits i tag)
        (tag.around (isSigned env s o) b.name) [] s
  /-- Text that has been lowered already is written again. -/
  | lowered {s : FunctionState} {digits : List Char} {i : Nat} {tag : Tag} {f : Fragment}
      (tagged : tag.evaluates = true) (operand : operands[i]? = some (.lowered f))
      (unbound : i ∉ bound.map Prod.fst) :
      Writes self env operands bound s (.placeholder digits i tag) (tag.around false f.operand) [] s
  /-- Of a constant the value may be all that is written. -/
  | constant {s : FunctionState} {digits : List Char} {i : Nat} {tag : Tag} {o : Operand}
      {text : String} (tagged : tag.evaluates = true) (operand : operands[i]? = some o)
      (unbound : i ∉ bound.map Prod.fst) (value : valueText? env s tag o = some text) :
      Writes self env operands bound s (.placeholder digits i tag) text [] s
  /-- Every other expression is lowered where it is written. -/
  | expr {s s' : FunctionState} {digits : List Char} {i : Nat} {tag : Tag} {e : Expr}
      {value : Fragment} (tagged : tag.evaluates = true) (operand : operands[i]? = some (.expr e))
      (unbound : i ∉ bound.map Prod.fst) (needed : valueText? env s tag (.expr e) = none)
      (run : (self e none).runIn env s = (.ok value, s')) :
      Writes self env operands bound s (.placeholder digits i tag)
        (tag.around (isSigned env s (.expr e))
          (tag.base (env.constant? s e.id).isSome value)) [i] s'

/-- Pieces are written one after the other. -/
inductive WritesAll (self : Lowering) (env : Env) (operands : List Operand)
    (bound : List (Nat × LocalBinding)) :
    FunctionState → List Piece → List String → List Nat → FunctionState → Prop where
  | nil {s : FunctionState} : WritesAll self env operands bound s [] [] [] s
  | cons {s s₁ s' : FunctionState} {q : Piece} {ps : List Piece} {text : String}
      {texts : List String} {places places' : List Nat}
      (head : Writes self env operands bound s q text places s₁)
      (tail : WritesAll self env operands bound s₁ ps texts places' s') :
      WritesAll self env operands bound s (q :: ps) (text :: texts) (places ++ places') s'

/-! ### Counting -/

/-- Whether the operand at a place is single: it is there, and may not be written again. -/
def isSingle (env : Env) (s : FunctionState) (operands : List Operand) (i : Nat) : Bool :=
  operands[i]?.any fun o => !o.isRepeatable (env.isConstant s)

section

variable {self : Lowering} {env : Env} {operands : List Operand} {bound : List (Nat × LocalBinding)}
  {s s' : FunctionState} {q : Piece} {ps : List Piece} {text : String} {texts : List String}
  {places : List Nat}

/-- What is lowered for a piece is not bound, and the piece refers to it. -/
theorem Writes.lowers (h : Writes self env operands bound s q text places s') (i : Nat) :
    (i ∈ places → i ∉ bound.map Prod.fst) ∧ places.count i ≤ useCount i [q] := by
  cases h with
  | expr tagged operand unbound needed run =>
    refine ⟨fun hi => ?_, ?_⟩
    · obtain rfl := List.mem_singleton.mp hi
      exact unbound
    · simp [useCount, List.count_cons, tagged]
  | _ => exact ⟨fun hi => absurd hi List.not_mem_nil, Nat.zero_le _⟩

/-- What is lowered in place is not bound, and not lowered more often than used. -/
theorem WritesAll.lowers (h : WritesAll self env operands bound s ps texts places s') (i : Nat) :
    (i ∈ places → i ∉ bound.map Prod.fst) ∧ places.count i ≤ useCount i ps := by
  induction h with
  | nil => exact ⟨fun hi => absurd hi List.not_mem_nil, Nat.zero_le _⟩
  | @cons s s₁ s' q ps text texts places places' head tail ih =>
    refine ⟨fun hi => (List.mem_append.mp hi).elim (head.lowers i).1 ih.1, ?_⟩
    rw [List.count_append, useCount_cons i q ps]
    exact Nat.add_le_add (head.lowers i).2 ih.2

end

/-! ### States -/

section

variable {env : Env} {operands : List Operand} {bound : List (Nat × LocalBinding)}
  {p : Prices} {s s' : FunctionState} {n : Nat}

/-- Binding an operand is steady. -/
theorem Binds.steady {o : Operand} {b : LocalBinding} (h : Binds (within n) env o s b s')
    (hs : Ready p env s) : Steady p s s' := by
  cases h with
  | expr run => exact (steady_within hs run).trans (.of_eq (Nat.le_succ _) rfl rfl)
  | lowered => exact .of_eq (Nat.le_succ _) rfl rfl

/-- Each local takes a number that is still free. -/
theorem Binds.name {o : Operand} {b : LocalBinding} (h : Binds (within n) env o s b s')
    (hs : Ready p env s) :
    ∃ k, s.nextName ≤ k ∧ k < s'.nextName ∧ b.name = "_t" ++ toString k := by
  cases h with
  | @expr e s s₁ value run =>
    exact ⟨s₁.nextName, (steady_within hs run).names, Nat.lt_succ_self _, rfl⟩
  | lowered => exact ⟨s.nextName, Nat.le_refl _, Nat.lt_succ_self _, rfl⟩

/-- So is binding all of them. -/
theorem BindsAll.steady (h : BindsAll (within n) env operands s bound s') (hs : Ready p env s) :
    Steady p s s' := by
  induction h with
  | nil => exact .refl _
  | cons operand head tail ih =>
    have hhead := head.steady hs
    exact hhead.trans (ih (hs.steady hhead))

/-- The numbers of the locals are free, and grow. -/
theorem BindsAll.names (h : BindsAll (within n) env operands s bound s') (hs : Ready p env s) :
    ∃ ks : List Nat, bound.map (fun b => b.2.name) = ks.map (fun k => "_t" ++ toString k) ∧
      ks.Pairwise (· < ·) ∧ ∀ k ∈ ks, s.nextName ≤ k ∧ k < s'.nextName := by
  induction h with
  | nil => exact ⟨[], rfl, .nil, fun k hk => absurd hk List.not_mem_nil⟩
  | cons operand head tail ih =>
    have hhead := head.steady hs
    obtain ⟨k, hle, hlt, hname⟩ := head.name hs
    obtain ⟨ks, hnames, hpairs, hrange⟩ := ih (hs.steady hhead)
    -- The number of the head was handed out before the operands of the tail were lowered.
    have htail := (tail.steady (hs.steady hhead)).names
    refine ⟨k :: ks, by simp [hname, hnames], List.pairwise_cons.mpr ⟨fun l hl => ?_, hpairs⟩, ?_⟩
    · exact Nat.lt_of_lt_of_le hlt (hrange l hl).1
    · rintro l (_ | ⟨_, hl⟩)
      · exact ⟨hle, Nat.lt_of_lt_of_le hlt htail⟩
      · exact ⟨Nat.le_trans hhead.names (hrange l hl).1, (hrange l hl).2⟩

/-- And writing a piece. -/
theorem Writes.steady {q : Piece} {text : String} {places : List Nat}
    (h : Writes (within n) env operands bound s q text places s') (hs : Ready p env s) :
    Steady p s s' := by
  cases h with
  | expr tagged operand unbound needed run => exact steady_within hs run
  | _ => exact .refl _

/-- Which operands are single does not change. -/
theorem isSingle_steady (h : Steady p s s') (i : Nat) :
    isSingle env s' operands i = isSingle env s operands i := by
  have hconstant : env.isConstant s' = env.isConstant s := by
    funext id
    rw [Env.isConstant, Env.isConstant, Env.constant?, Env.constant?, h.constants]
  rw [isSingle, isSingle, hconstant]

end

/-! ### Places -/

/-- Locals with their places, which are counted from `k`. -/
def placed (k : Nat) (bound : List (Option LocalBinding)) : List (Nat × LocalBinding) :=
  (bound.zipIdx k).filterMap fun b => b.1.map fun binding => (b.2, binding)

/-- Bindings are placed at consecutive indices. -/
theorem placed_cons (k : Nat) (b : Option LocalBinding) (bound : List (Option LocalBinding)) :
    placed k (b :: bound) = (b.map fun binding => (k, binding)).toList ++ placed (k + 1) bound := by
  cases b <;> simp [placed, List.zipIdx_cons]

/-- A binding is placed at its own index. -/
theorem mem_placed {bound : List (Option LocalBinding)} {i : Nat} {b : LocalBinding} :
    (i, b) ∈ placed 0 bound ↔ bound[i]? = some (some b) := by
  simp only [placed, List.mem_filterMap, Option.map_eq_some_iff, Prod.mk.injEq, Prod.exists]
  constructor
  · rintro ⟨_, _, hmem, b, rfl, rfl, rfl⟩
    exact List.mem_zipIdx_iff_getElem?.mp hmem
  · intro h
    exact ⟨some b, i, List.mem_zipIdx_iff_getElem?.mpr h, b, rfl, rfl, rfl⟩

/-- The bindings are those that are placed. -/
theorem map_snd_placed (k : Nat) (bound : List (Option LocalBinding)) :
    (placed k bound).map Prod.snd = bound.filterMap id := by
  induction bound generalizing k with
  | nil => rfl
  | cons b bound ih =>
    rw [placed_cons, List.map_append, ih]
    cases b <;> rfl

/-- The places of a list with numbers from `k` on, in the order in which they are bound. -/
theorem pairwise_placed (k : Nat) (bound : List (Option LocalBinding)) :
    ((placed k bound).map Prod.fst).Pairwise (· < ·) ∧ ∀ i ∈ (placed k bound).map Prod.fst, k ≤ i := by
  induction bound generalizing k with
  | nil => exact ⟨.nil, fun i hi => absurd hi List.not_mem_nil⟩
  | cons b bound ih =>
    obtain ⟨hpairs, hge⟩ := ih (k + 1)
    rw [placed_cons]
    cases b with
    | none => exact ⟨hpairs, fun i hi => Nat.le_of_succ_le (hge i hi)⟩
    | some b =>
      refine ⟨List.pairwise_cons.mpr ⟨hge, hpairs⟩, fun i hi => ?_⟩
      rcases List.mem_cons.mp hi with rfl | hi
      · exact Nat.le_refl _
      · exact Nat.le_of_succ_le (hge i hi)

end Template

end GoLua
