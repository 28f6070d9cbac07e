import GoLua.Proofs.Lua.StringToken
import GoLua.Proofs.Type.Reading
import GoLua.Proofs.Verbatim

/-!
# What the name of a type tells

The run-time library is told of a type by its text and nothing else: an emitted assertion, box, copy or
comparison carries no more. So two types that have one text are one type to the library, and it matters
which types these are.

They are those that are identical up to the two things that a text leaves out (`Lower.text_tells_type`). One
of the two is a defect of the text: Go takes `func([]int)` and `func(...int)` for two types, and an
assertion of the one is answered as if it were of the other (`Lower.text_shared`).
-/

namespace GoLua

/-! ### Types that the library takes for one -/

open Lua in
/-- The text of a type assertion. -/
def Lower.assertionText (operand : String) (type : GoType) (commaOk : Bool) : String :=
  Support.assertType ++ "(" ++ operand ++
    (", " ++ quote type.text ++ if commaOk then ", true)" else ")")

namespace Lower

open Lua

variable {env : Env} {st st' : FunctionState} {self : Lowering} {e base asserted : Expr}
  {type target : GoType} {f : Fragment}

/-- A type assertion passes on the text of the type, and nothing else of it. -/
theorem runIn_typeAssertion (htype : env.type? st e.id = some type)
    (htarget : env.type? st asserted.id = some target) (hinert : Inert target.text)
    (hbase : (self base none).runIn env st = (.ok f, st')) :
    (typeAssertion self e base (some asserted)).runIn env st =
      (.ok (.atom (assertionText (env.written st base f) target type.isTuple)), st') := by
  -- The name of the type is a literal in the middle of the pattern, and has no placeholders in it.
  have hfront : Inert (Support.assertType ++ "(") := by decide
  have hback (commaOk : Bool) :
      Inert (", " ++ quote target.text ++ if commaOk then ", true)" else ")") :=
    inert_append (inert_append (by decide) (inert_quote hinert)) (by cases commaOk <;> decide)
  rw [typeAssertion, LowerM.runIn_bind_ok (runIn_typeOf_of_type? htarget),
    LowerM.runIn_bind_ok (runIn_typeOf_of_type? htype)]
  have hpattern : Support.assertType ++ "(%e, " ++ quote target.text ++
      (if type.isTuple then ", true)" else ")") = Support.assertType ++ "(" ++ "%e" ++
        (", " ++ quote target.text ++ if type.isTuple then ", true)" else ")") := by
    simp only [← String.append_assoc]
    rfl
  dsimp only
  rw [hpattern]
  exact Template.runIn_renderAs_around hfront (hback type.isTuple) hbase false

/-- So assertions of two types are written alike just if the types have one text. -/
theorem assertionText_eq_iff (operand : String) (s t : GoType) (commaOk : Bool) :
    assertionText operand s commaOk = assertionText operand t commaOk ↔ s.text = t.text := by
  constructor
  · intro h
    exact quote_injective ((String.append_right_inj _).mp
      ((String.append_left_inj _).mp ((String.append_right_inj _).mp h)))
  · intro h
    rw [assertionText, assertionText, h]

end Lower

/-- **What the name of a type tells.** Two types have the same text just if they are identical up to what
texts leave out, and where their texts leave nothing out, just if they are identical. So assertions of the
two, of the same value, are written alike just if the types are identical up to what texts leave out. -/
theorem Lower.text_tells_type {s t : GoType} (hs : s.wellNamed) (ht : t.wellNamed) :
    (s.text = t.text ↔ s.shown.identical t.shown) ∧
    (∀ naming : String → String, s.isShown naming → t.isShown naming →
      (s.text = t.text ↔ s.identical t)) ∧
    ∀ (self : Lowering) (env : Env) (st st' : FunctionState) (e base asserted asserted' : Expr)
      (type : GoType) (f : Fragment), Inert s.text → Inert t.text → env.type? st e.id = some type →
      env.type? st asserted.id = some s → env.type? st asserted'.id = some t →
      (self base none).runIn env st = (.ok f, st') →
        ((typeAssertion self e base (some asserted)).runIn env st =
            (typeAssertion self e base (some asserted')).runIn env st ↔
          s.shown.identical t.shown) := by
  -- One direction reads the texts back, the other one writes what is identical.
  have hiff : s.text = t.text ↔ s.shown.identical t.shown := by
    constructor
    · intro h
      exact (GoType.IsTold.all s hs t ht .nil .nil (by rw [h])).1
    · intro h
      rw [← s.text_shown, GoType.text_eq_of_identical h, t.text_shown]
  refine ⟨hiff, fun naming hshown hshown' => ?_, ?_⟩
  -- With one definition for each name, the shown types tell the types.
  · exact ⟨fun h => s.identical_of_shown t hshown hshown' (hiff.mp h), GoType.text_eq_of_identical⟩
  · intro self env st st' e base asserted asserted' type f hinert hinert' htype hs ht hbase
    -- An assertion writes the name between two fixed texts, so its text tells the name.
    rw [runIn_typeAssertion htype hs hinert hbase, runIn_typeAssertion htype ht hinert' hbase, ← hiff,
      ← assertionText_eq_iff (env.written st base f) s t type.isTuple]
    simp [Fragment.atom]

/-- `map[string]struct { main.Base; next *main.Node }`, with `main.Base` and `main.Node` declared as `d` -/
def nodesType (d : GoType) : GoType :=
  .map (.basic .string) (.struct
    [⟨"Base", .named "main.Base" d, true, none⟩,
      ⟨"next", .pointer (.named "main.Node" d), false, none⟩])

/-- A value of an interface type, two expressions that denote types, and a node of the first type. -/
def assertions (s t : GoType) : Build (Expr × Expr × Expr × Expr) := do
  let v ← Build.var "v" .anyInterface
  return (v, ← Build.typeExpr s, ← Build.typeExpr t, ← Build.name "assertion" s)

/-- The facts about `assertions`. -/
def assertionsEnv (s t : GoType) : Env :=
  { facts := ((assertions s t).run {}).2.facts }

/-- The embedded field is named after its type, so that these two have one text tells that they are
identical, and assertions of the two are written alike. -/
theorem Lower.text_tells_type_nodes :
    (nodesType .void).identical (nodesType (.struct [])) ∧
    ∃ v a a' e, ((assertions (nodesType .void) (nodesType (.struct []))).run {}).1 = (v, a, a', e) ∧
      (typeAssertion (within 1) e v (some a)).runIn
          (assertionsEnv (nodesType .void) (nodesType (.struct []))) {} =
        (typeAssertion (within 1) e v (some a')).runIn
          (assertionsEnv (nodesType .void) (nodesType (.struct []))) {} := by
  obtain ⟨-, hidentical, hassertion⟩ := Lower.text_tells_type (s := nodesType .void)
    (t := nodesType (.struct [])) (by decide +kernel) (by decide +kernel)
  let naming (text : String) : String := String.ofList (text.toList.reverse.takeWhile (· ≠ '.')).reverse
  refine ⟨(hidentical naming (by decide +kernel) (by decide +kernel)).mp (by decide +kernel),
    _, _, _, _, rfl, ?_⟩
  exact (hassertion _ _ _ _ _ _ _ _ _ (.atom "v") (by decide +kernel) (by decide +kernel) rfl rfl rfl
    rfl).mpr (by decide +kernel)

/-- `func([]int)`, or `func(...int)` -/
def intsFunc (variadic : Bool) : GoType :=
  .func { params := [.slice (.basic .int)], results := [], variadic }

/-- An assertion that an interface value is of a type. -/
def assertedTo (type : GoType) : Build Expr := do
  let v ← Build.var "v" .anyInterface
  let asserted ← Build.typeExpr type
  return .typeAssert (← Build.node type) v (some asserted)

/-- The library is told of a variadic function and of one that takes a slice by the same name. -/
theorem Lower.text_shared :
    (intsFunc true).identical (intsFunc false) = false ∧ (intsFunc true).text = (intsFunc false).text ∧
    ∀ variadic : Bool,
      ((lower ((assertedTo (intsFunc variadic)).run {}).1 none).runIn
        { facts := ((assertedTo (intsFunc variadic)).run {}).2.facts } {}).1.toOption =
        some (.atom "__assertType(v, \"func([]int)\")") := by
  decide +kernel

end GoLua
