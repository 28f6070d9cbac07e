import GoLua.Proofs.Integer.Constant
import GoLua.Proofs.Template.Repeating

/-!
# Copies of aggregates

Emitted code holds structs and arrays by reference, so an aggregate that is handed on has to be copied,
unless a literal has just built it. Two rules do that.

* Where an aggregate is desired, a function of the library is called that copies its argument.
* Where an interface value is desired, a struct is given to the constructor of its elements.

The first rule looks at the desired type and the second one at the type of the operand, and neither is
for an array that becomes an interface value. Then the text refers to the array itself.

`Lower.aggregates_handedOn` tells for every aggregate whether it is copied (`Fragment.Copies`), and that
it is left as it is otherwise.
-/

namespace GoLua

open Lower Template Lua

/-! ### Copies -/

/-- The call that makes an element of what is held in a place. -/
def elementText (base : String) : String :=
  base ++ ".__constructor.elem(" ++ base ++ ")"

/-- **What copies a base**: a call of the library with it as the first argument, or one of the constructor
of its elements. -/
inductive CopyOf (base : String) : String → Prop where
  | clone (rest : String) : CopyOf base (Support.clone ++ "(" ++ base ++ ", " ++ rest)
  | element : CopyOf base (elementText base)

/-- **A copy of what a fragment refers to.** It may be bound to a local first. -/
inductive Fragment.Copies (f : Fragment) : Fragment → Prop where
  | inPlace {text : String} (copy : CopyOf f.operand text) : f.Copies (.atom text)
  | bound {name text : String} (copy : CopyOf name text) :
      f.Copies (.atom (withLocals [⟨name, f.text⟩] text))

section

variable {f g : Fragment} {base text : String}

/-- A copy is longer than what it copies. -/
theorem CopyOf.length_lt (h : CopyOf base text) : base.length < text.length := by
  cases h with
  | clone rest =>
    simp only [String.length_append, show Support.clone.length = 9 from rfl]
    omega
  | element =>
    simp only [elementText, String.length_append, show ".__constructor.elem(".length = 20 from rfl]
    omega

/-- Brackets only add to a text. -/
theorem length_text_le_operand (f : Fragment) : f.text.length ≤ f.operand.length := by
  unfold Fragment.operand
  split
  · simp only [Text.parenthesized, String.length_append]
    omega
  · exact Nat.le_refl _

/-- A copy is never the reference itself. -/
theorem Fragment.Copies.text_ne (h : f.Copies g) : g.text ≠ f.text := by
  intro heq
  have hlength := congrArg String.length heq
  cases h with
  | inPlace copy =>
    have hcopy := copy.length_lt
    have hoperand := length_text_le_operand f
    simp only [Fragment.atom] at hlength
    omega
  | bound copy =>
    have hequals : " = ".length = 3 := rfl
    simp only [Fragment.atom, withLocals, String.length_append, List.map_cons, List.map_nil,
      String.intercalate_singleton] at hlength
    omega

end

/-! ### Calls of the library -/

section

variable {env : Env} {s s₁ s' : FunctionState} {self : Lowering} {e : Expr} {f g : Fragment}
  {rest : String}

/-- The call of the library, by its pieces. -/
theorem parse_clone (rest : String) :
    parse 1 (Support.clone ++ "(%e, " ++ rest) = (pieces 1 1 none rest.toList).map fun ps =>
      [.literal (Support.clone.toList ++ ['('])] ++
        .placeholder [] 0 .expression :: consChar ',' (consChar ' ' ps) := by
  have hcut : cutText 1 0 none (Support.clone ++ "(%e, ").toList =
      some ("_gi_clone(".toList.map .char ++
        [.place [] 0 .expression, .char ',', .char ' '], 1) := by
    rfl
  rw [parse, String.toList_append]
  exact pieces_cutText hcut _

/-- Whatever the type is called, a call of the library that succeeds has lowered its operand and copies it. -/
theorem exists_copies_of_clone
    (h : (render self (Support.clone ++ "(%e, " ++ rest) [e]).runIn env s = (.ok g, s')) :
    ∃ f s₁, (self e none).runIn env s = (.ok f, s₁) ∧ (env.constant? s e.id = none → f.Copies g) := by
  obtain ⟨ps, hparse⟩ : ∃ ps, parse 1 (Support.clone ++ "(%e, " ++ rest) =
      .ok ([.literal (Support.clone.toList ++ ['('])] ++
        .placeholder [] 0 .expression :: consChar ',' (consChar ' ' ps)) := by
    rw [parse_clone]
    cases hps : pieces 1 1 none rest.toList with
    | ok ps => exact ⟨ps, rfl⟩
    | error fault =>
      have hfault := parse_clone rest
      rw [hps] at hfault
      change (renderAs false self _ [.expr e]).runIn env s = _ at h
      rw [renderAs, show parse [Operand.expr e].length _ = _ from hfault] at h
      cases h
  obtain ⟨f, s₁, s₂, bound, texts, hrun, htexts, hg⟩ :=
    exists_of_runIn_renderAs_front _ hparse (fun _ => fixed_literal _) h
  refine ⟨f, s₁, hrun, fun hunknown => ?_⟩
  -- The comma and the blank are written whatever follows.
  have hforall : List.Forall₂ _ ([',', ' '].foldr consChar ps) texts := forall₂_of_runIn_mapM htexts
  obtain ⟨texts', -, hjoin⟩ := texts_foldr_consChar writes_literal_iff hforall
  have hcomma : String.join texts = ", " ++ String.join texts' :=
    String.toList_inj.mp (by rw [hjoin, String.toList_append]; rfl)
  have hcopy (base : String) : CopyOf base
      (String.ofList (Support.clone.toList ++ ['(']) ++ base ++ String.join texts) := by
    rw [hcomma, ← String.append_assoc]
    exact .clone _
  rcases hg with rfl | ⟨name, rfl⟩
  · rw [Env.written_of_unknown hunknown]
    exact .inPlace (hcopy _)
  · exact .bound (hcopy name)

/-- With an inert name of the type it succeeds. -/
theorem runIn_clone (hrest : Inert rest) (hunknown : env.constant? s e.id = none)
    (hrun : (self e none).runIn env s = (.ok f, s₁)) :
    (render self (Support.clone ++ "(%e, " ++ rest) [e]).runIn env s =
      (.ok (.atom (Support.clone ++ "(" ++ f.operand ++ ", " ++ rest)), s₁) := by
  have hfront : Inert (Support.clone ++ "(") := by decide
  have hcomma : Inert ", " := by decide
  have hpattern : Support.clone ++ "(%e, " ++ rest =
      Support.clone ++ "(" ++ "%e" ++ (", " ++ rest) := by
    rw [← String.append_assoc]
    rfl
  rw [hpattern]
  refine (runIn_renderAs_around hfront (inert_append hcomma hrest) hrun false).trans ?_
  rw [Env.written_of_unknown hunknown, ← String.append_assoc]
  rfl

/-! ### Constructors of elements -/

/-- The pieces of the call of a constructor. -/
def elementPieces : List Piece :=
  [.placeholder ['1'] 0 .expression, .literal ".__constructor.elem(".toList,
    .placeholder ['1'] 0 .expression, .literal [')']]

theorem parse_element : parse 1 "%1e.__constructor.elem(%1e)" = .ok elementPieces := rfl

/-- A call of the constructor that succeeds has lowered its operand. -/
theorem exists_of_element
    (h : (render self "%1e.__constructor.elem(%1e)" [e]).runIn env s = (.ok g, s')) :
    ∃ f s₁, (self e none).runIn env s = (.ok f, s₁) := by
  obtain ⟨f, s₁, _, _, _, hrun, -, -⟩ :=
    exists_of_runIn_renderAs_front [] parse_element (fun _ => fixed_nil) h
  exact ⟨f, s₁, hrun⟩

/-- The operand of the constructor is written where it is needed, or bound. -/
theorem runIn_element {m : Nat} (hunknown : env.constant? s e.id = none)
    (hrun : (within m e none).runIn env s = (.ok f, s₁)) :
    ∃ g s', (render (within m) "%1e.__constructor.elem(%1e)" [e]).runIn env s = (.ok g, s') ∧
      Repeats e f s₁ false elementText g s' := by
  have hbody : elementText = repeating "" [".__constructor.elem(", ")"] := by
    funext base
    simp [elementText, repeating, String.append_assoc]
  have hpattern : "%1e.__constructor.elem(%1e)" = elementText "%1e" := by decide
  rw [hpattern, hbody]
  exact runIn_render_repeating (by decide) (by decide) (by decide) hunknown hrun

/-- The pattern of an element copies its operand. -/
theorem Template.Repeats.copies (h : Repeats e f s false elementText g s') : f.Copies g := by
  cases h with
  | name => exact .inPlace .element
  | bound => exact .bound .element

end

/-! ### Aggregates -/

/-- **An expression that holds an aggregate.** Its type is a struct or an array that the configuration has
no other use for, and no literal has just built it. -/
structure Env.HoldsAggregate (env : Env) (s : FunctionState) (e : Expr) (source : GoType) : Prop where
  type : env.type? s e.id = some source
  isAggregate : source.isAggregate
  isNoLiteral : e.unparen.isCompositeLit = false
  isNoHostObject : env.config.isHostObject source = false
  isUnboxed : env.config.isBoxed source = false

/-- Whether handing on an aggregate makes a copy: to an aggregate always, and a struct also to another
type. -/
def copiedInto (source desired : GoType) : Bool :=
  desired.isAggregate || source.isStruct && !source.identical desired

section

variable {env : Env} {s s₁ s' : FunctionState} {e : Expr} {f g : Fragment} {source desired : GoType}
  {m : Nat}

/-- An aggregate is neither basic, nor an interface, nor `nil`. -/
theorem not_compound_of_isAggregate (h : source.isAggregate) :
    source.basicKind? = none ∧ source.isInterface = false ∧ source.isUntypedNil = false := by
  unfold GoType.isAggregate at h
  refine ⟨?_, ?_, ?_⟩
  · unfold GoType.basicKind?
    split
    · next k heq => simp [heq] at h
    · rfl
  · unfold GoType.isInterface
    split
    · next methods heq => simp [heq] at h
    · rfl
  · unfold GoType.isUntypedNil
    split
    · cases h
    · rfl

/-- Constants are no aggregates. -/
theorem constant?_of_isAggregate (htype : env.type? s e.id = some source) (h : source.isAggregate)
    (hrun : (within m e none).runIn env s = (.ok f, s₁)) : env.constant? s e.id = none := by
  cases m with
  | zero => cases hrun
  | succ m =>
    refine Option.eq_none_iff_forall_ne_some.mpr fun c hc => ?_
    change (expression (within m) e none).runIn env s = _ at hrun
    rw [runIn_expression_constant htype hc, Constant.lower, (not_compound_of_isAggregate h).1] at hrun
    cases hrun

/-- What is no aggregate gets a struct by its constructor, and anything else as it is. -/
theorem Env.HoldsAggregate.runIn_implicitCopy (h : env.HoldsAggregate s e source)
    (hdesired : source.identical desired ∨ desired.isInterface) (haggregate : desired.isAggregate = false) :
    (implicitCopy (within m) e desired).runIn env s =
      if source.isStruct && !source.identical desired then
        (render (within m) "%1e.__constructor.elem(%1e)" [e]).runIn env s
      else (within m e none).runIn env s := by
  obtain ⟨-, hnoInterface, hnotNil⟩ := not_compound_of_isAggregate h.isAggregate
  rw [implicitCopy, if_neg (by simp [haggregate]), implicit,
    LowerM.runIn_bind_ok (runIn_typeOf_of_type? h.type)]
  cases hidentical : source.identical desired with
  | true => simp
  | false =>
    have hinterface : desired.isInterface := by simpa [hidentical] using hdesired
    rw [if_neg (by simp), if_neg (by simp [hnotNil]), if_pos (by simp [hinterface, hnoInterface]),
      LowerM.runIn_bind_ok (runIn_config env s _), h.isNoHostObject, if_neg (by simp),
      LowerM.runIn_bind_ok (runIn_config env s _), h.isUnboxed, if_neg (by simp)]
    cases source.isStruct with
    | true => rfl
    | false =>
      have hnoInteger : desired.isInteger = false := by
        unfold GoType.isInterface at hinterface
        unfold GoType.isInteger GoType.basicKind?
        split at hinterface
        · next heq => simp [heq]
        · cases hinterface
      -- An interface type that is desired changes nothing.
      exact runIn_within_desired m fun c _ => lower_some_eq_none hnoInteger c

/-- Where an aggregate is desired, the library copies. -/
theorem Env.HoldsAggregate.implicitCopy_aggregate (h : env.HoldsAggregate s e source)
    (haggregate : desired.isAggregate) (self : Lowering) :
    implicitCopy self e desired =
      render self (Support.clone ++ "(%e, " ++ (quote desired.text ++ ")")) [e] := by
  rw [implicitCopy, if_pos (by simp [haggregate, h.isNoLiteral]), String.append_assoc]

/-- What has succeeded has lowered the operand, and copies it or leaves it as it is. -/
theorem Env.HoldsAggregate.copies_of_runIn (h : env.HoldsAggregate s e source)
    (hdesired : source.identical desired ∨ desired.isInterface)
    (hrun : (implicitCopy (within m) e desired).runIn env s = (.ok g, s')) :
    ∃ f s₁, (within m e none).runIn env s = (.ok f, s₁) ∧
      if copiedInto source desired then f.Copies g ∧ g.text ≠ f.text else g = f ∧ s' = s₁ := by
  have hunknown {f : Fragment} {s₁ : FunctionState}
      (hf : (within m e none).runIn env s = (.ok f, s₁)) : env.constant? s e.id = none :=
    constant?_of_isAggregate h.type h.isAggregate hf
  -- Into an aggregate the copy is that of a clone, elsewhere that of an element, if any.
  cases haggregate : desired.isAggregate with
  | true =>
    rw [h.implicitCopy_aggregate haggregate] at hrun
    obtain ⟨f, s₁, hf, hcopies⟩ := exists_copies_of_clone hrun
    have hcopy := hcopies (hunknown hf)
    refine ⟨f, s₁, hf, ?_⟩
    rw [if_pos (by simp [copiedInto, haggregate])]
    exact ⟨hcopy, hcopy.text_ne⟩
  | false =>
    rw [h.runIn_implicitCopy hdesired haggregate] at hrun
    simp only [copiedInto, haggregate, Bool.false_or]
    split at hrun
    · next hcopied =>
      obtain ⟨f, s₁, hf⟩ := exists_of_element hrun
      obtain ⟨g', s₂, hrender, hrepeats⟩ := runIn_element (hunknown hf) hf
      rw [hrun] at hrender
      cases hrender
      refine ⟨f, s₁, hf, ?_⟩
      rw [if_pos hcopied]
      exact ⟨hrepeats.copies, hrepeats.copies.text_ne⟩
    · next hkept =>
      refine ⟨g, s', hrun, ?_⟩
      rw [if_neg hkept]
      exact ⟨rfl, rfl⟩

/-- An explicit conversion to an interface type is an implicit one. -/
theorem runIn_conversion_interface (htype : env.type? s e.id = some source) (h : source.isAggregate)
    (hinterface : desired.isInterface) (hdistinct : source.identical desired = false)
    (self : Lowering) :
    (conversion self e desired).runIn env s = (implicitCopy self e desired).runIn env s := by
  obtain ⟨hbasic, -, hnotNil⟩ := not_compound_of_isAggregate h
  have hrule : convertFrom self e source desired = implicitCopy self e desired := by
    unfold GoType.isInterface at hinterface
    rw [convertFrom, if_neg (by simp [hdistinct]), if_neg (by simp [hnotNil])]
    split
    iterate 3
      · next heq =>
        rw [heq] at hinterface
        cases hinterface
    · rw [if_neg (by simp [hbasic])]
    · rfl
  rw [conversion, LowerM.runIn_bind_ok (runIn_typeOf_of_type? htype), hrule]

/-- No interface type is an aggregate, and no array a struct. -/
theorem copiedInto_interface_of_isArray (harray : source.isArray) (hinterface : desired.isInterface) :
    copiedInto source desired = false := by
  have haggregate : desired.isAggregate = false := by
    unfold GoType.isInterface at hinterface
    unfold GoType.isAggregate
    split at hinterface
    · next heq => rw [heq]
    · cases hinterface
  have hstruct : source.isStruct = false := by
    unfold GoType.isArray at harray
    unfold GoType.isStruct
    split at harray
    · next heq => rw [heq]
    · cases harray
  simp [copiedInto, haggregate, hstruct]

end

/-- **Aggregates that are handed on.** An aggregate is converted implicitly to an identical type or to an
interface type. If that succeeds, the operand has been lowered. An aggregate that is desired gets a copy
of it, and so does an interface value that holds a struct; otherwise the outcome is the operand as it is.

The copy is the call of the library, if the name of the desired type is inert, or the call of the
constructor; neither fails where the operand is lowered. Explicit conversions to interface types do the
same. What is not copied is every array that becomes an interface value. -/
theorem Lower.aggregates_handedOn {env : Env} {s : FunctionState} {e : Expr}
    {source desired : GoType} (h : env.HoldsAggregate s e source)
    (hdesired : source.identical desired ∨ desired.isInterface) (m : Nat) :
    (∀ g s', (implicitCopy (within m) e desired).runIn env s = (.ok g, s') →
      ∃ f s₁, (within m e none).runIn env s = (.ok f, s₁) ∧
        if copiedInto source desired then f.Copies g ∧ g.text ≠ f.text else g = f ∧ s' = s₁) ∧
    (∀ f s₁, (within m e none).runIn env s = (.ok f, s₁) →
      (desired.isAggregate → Inert desired.text →
        (implicitCopy (within m) e desired).runIn env s =
          (.ok (.atom (callText Support.clone [f.operand, quote desired.text])), s₁)) ∧
      (desired.isAggregate = false → source.isStruct → source.identical desired = false →
        ∃ g s', (implicitCopy (within m) e desired).runIn env s = (.ok g, s') ∧
          Repeats e f s₁ false elementText g s') ∧
      (copiedInto source desired = false →
        (implicitCopy (within m) e desired).runIn env s = (.ok f, s₁))) ∧
    (desired.isInterface → source.identical desired = false →
      (conversion (within m) e desired).runIn env s =
        (implicitCopy (within m) e desired).runIn env s) ∧
    (source.isArray → desired.isInterface → copiedInto source desired = false) := by
  -- The run of the copy first, then the three texts it comes to, and the conversion to an
  -- interface.
  refine ⟨fun g s' => h.copies_of_runIn hdesired, fun f s₁ hrun => ⟨fun haggregate hinert => ?_,
      fun haggregate hstruct hdistinct => ?_, fun hkept => ?_⟩,
    fun hinterface hdistinct => runIn_conversion_interface h.type h.isAggregate hinterface hdistinct _,
    copiedInto_interface_of_isArray⟩
  · rw [h.implicitCopy_aggregate haggregate, runIn_clone (inert_append (inert_quote hinert) (by decide))
      (constant?_of_isAggregate h.type h.isAggregate hrun) hrun]
    simp [callText, Text.parenthesized, Text.commaSeparated, String.append_assoc]
  · rw [h.runIn_implicitCopy hdesired haggregate, if_pos (by simp [hstruct, hdistinct])]
    exact runIn_element (constant?_of_isAggregate h.type h.isAggregate hrun) hrun
  · obtain ⟨haggregate, hkept⟩ := Bool.or_eq_false_iff.mp hkept
    rw [h.runIn_implicitCopy hdesired haggregate, if_neg (by simp [hkept])]
    exact hrun

/-- `p` and `a`, for a point and an array of three integers -/
def pointAndArray : Build (Expr × Expr) := do
  let field (name : String) : Field := { name, type := .basic .int }
  let p ← Build.var "p" (.named "main.Point" (.struct [field "X", field "Y"]))
  return (p, ← Build.var "a" (.array (.basic .int) 3))

/-- The facts about `pointAndArray`. -/
def pointAndArrayEnv : Env :=
  { facts := (pointAndArray.run {}).2.facts }

/-- The array is copied where an array is desired, and the point where an interface value is. -/
theorem Lower.aggregates_handedOn_pointAndArray :
    ∃ p a, (pointAndArray.run {}).1 = (p, a) ∧
      (implicitCopy (within 1) a (.array (.basic .int) 3)).runIn pointAndArrayEnv {} =
        (.ok (.atom (callText Support.clone ["a", quote "[3]int"])), {}) ∧
      ∃ g s', (implicitCopy (within 1) p (.interface [])).runIn pointAndArrayEnv {} = (.ok g, s') ∧
        Repeats p (.atom "p") {} false elementText g s' := by
  refine ⟨_, _, rfl, ?_, ?_⟩
  · have ha : pointAndArrayEnv.HoldsAggregate {} (pointAndArray.run {}).1.2
        (.array (.basic .int) 3) := ⟨rfl, rfl, rfl, rfl, rfl⟩
    have hsame : (GoType.array (.basic .int) 3).identical (.array (.basic .int) 3) := by decide
    obtain ⟨-, hexact, -⟩ := Lower.aggregates_handedOn ha (.inl hsame) 1
    exact (hexact _ _ rfl).1 rfl (by decide)
  · have hp : pointAndArrayEnv.HoldsAggregate {} (pointAndArray.run {}).1.1 _ :=
      ⟨rfl, rfl, rfl, rfl, rfl⟩
    have hinterface : (GoType.interface []).isInterface := rfl
    obtain ⟨-, hexact, -⟩ := Lower.aggregates_handedOn hp (.inr hinterface) 1
    exact (hexact _ _ rfl).2.1 rfl rfl (by decide)

/-- Where an interface value is desired, the array itself is handed on. -/
theorem arrayIntoInterface_shared :
    pointAndArrayEnv.HoldsAggregate {} (pointAndArray.run {}).1.2 (.array (.basic .int) 3) ∧
      (lower (pointAndArray.run {}).1.2 none).runIn pointAndArrayEnv {} = (.ok (.atom "a"), {}) ∧
      (implicitCopy lower (pointAndArray.run {}).1.2 (.interface [])).runIn pointAndArrayEnv {} =
        (.ok (.atom "a"), {}) ∧
      ¬ (Fragment.atom "a").Copies (.atom "a") :=
  ⟨⟨rfl, rfl, rfl, rfl, rfl⟩, rfl, rfl, fun h => h.text_ne rfl⟩

end GoLua
