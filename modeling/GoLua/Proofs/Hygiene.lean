import GoLua.Proofs.AccessorBoxes
import GoLua.Proofs.Balanced
import GoLua.Proofs.Text.Names

/-!
# Names of the program are not captured

Names of the program stand in functions and behind declarations that lowering writes around them: the
accessor of a place has a getter and a setter, a pointer conversion and a template declare locals. What
these bind would hide a variable of the same name, and nothing is compared with the names of the program
when a name is made.

What keeps the names apart is their form alone. All that lowering binds, assigns and keeps accessors in is
a *generated* name: a hint with a number, or `_v`, which is what the setter of an accessor takes
(`isGenerated`). A variable with a name of another form is not captured (`Session.identifiers_unbound`).
A variable that is called `_v` is (`accessor_captures`).

The functions that the program wrote come with names of the program, which are passed to themselves; what
their code binds is not looked at.
-/

namespace GoLua

open Lua Lower

/-! ### Texts -/

/-- A character of the names of a program: a letter of any alphabet, a digit, an underscore, or the dot of
a qualified name. -/
def isIdentifierChar (c : Char) : Bool :=
  isNameChar c || c == '.' || 127 < c.toNat

/-- A name of a program. -/
def IsIdentifier (name : String) : Prop :=
  ∀ c ∈ name.toList, isIdentifierChar c

/-- **A text that does not bind a name**: whatever is declared in it, and whatever its functions take, is
another name. The `codes` of the program are not looked at; their functions take only what they are called
with under the same names. -/
inductive Unbound (codes : String → Prop) (x : String) : List Char → Prop where
  /-- Text in which nothing is bound. -/
  | plain {t : List Char} (hquote : '"' ∉ t) (h : ∀ w, isBinder w → ¬ HasName w t) : Unbound codes x t
  | literal {t : List Char} (h : IsLiteral t) : Unbound codes x t
  | name {n : String} (h : IsIdentifier n) (hplain : isBinder n.toList = false) :
      Unbound codes x n.toList
  /-- A package, in front of the name of an entity. -/
  | package {p : String} (h : IsIdentifier p) : Unbound codes x (p.toList ++ ['.'])
  | code {c : String} (h : codes c) : Unbound codes x c.toList
  | declaration {y : List Char} (hy : ∀ c ∈ y, isNameChar c) (h : y ≠ x.toList) :
      Unbound codes x ("local ".toList ++ y)
  /-- The head of a function that takes nothing. -/
  | thunk : Unbound codes x "function()".toList
  | head {y : List Char} (hy : ∀ c ∈ y, isNameChar c) (h : y ≠ x.toList) :
      Unbound codes x ("function(".toList ++ y ++ [')'])
  | closure {c : String} {names : List String} (hcode : codes c) (hnames : ∀ n ∈ names, IsIdentifier n) :
      Unbound codes x ("(function(" ++ Text.commaSeparated names ++ ") return " ++ c ++ " end)(" ++
        Text.commaSeparated names ++ ")").toList
  | append {t u : List Char} (ht : Unbound codes x t) (hu : Unbound codes x u) (h : apart t u) :
      Unbound codes x (t ++ u)

/-! ### Programs -/

/-- A name made safe is still an identifier. -/
theorem isIdentifier_safeName {name : String} (h : IsIdentifier name) : IsIdentifier (safeName name) := by
  unfold safeName
  split
  · rw [IsIdentifier, String.toList_append, List.forall_mem_append]
    exact ⟨h, by decide⟩
  · exact h

/-- An identifier has no index that could be taken off. -/
theorem dropBoxIndex_of_isIdentifier {name : String} (h : IsIdentifier name) :
    dropBoxIndex name = name := by
  unfold dropBoxIndex
  split
  · next r hr =>
    have hmem : ']' ∈ name.toList := List.mem_reverse.mp (hr ▸ List.mem_cons_self)
    exact absurd (h _ hmem) (by decide)
  · rfl

/-- A word is an identifier. -/
theorem isIdentifier_of_isNameChar {name : String} (h : ∀ c ∈ name.toList, isNameChar c) :
    IsIdentifier name :=
  fun c hc => by simp [isIdentifierChar, h c hc]

/-- **A program with identifiers for names.** The code of its bodies may be any. -/
def Vocabulary.identifiers (codes : String → Prop) : Vocabulary where
  name := IsIdentifier
  code := codes
  strict := False
  failure _ := True
  safe := isIdentifier_safeName
  unboxed h := (dropBoxIndex_of_isIdentifier h).symm ▸ h
  spelled _ _ h := by
    obtain ⟨c, cs, hname, -, hall, -⟩ := toList_of_isName h
    exact isIdentifier_of_isNameChar fun d hd => List.all_eq_true.mp hall d (hname ▸ hd)
  quiet h := h.elim
  failing _ := trivial

namespace Unbound

variable {codes : String → Prop} {x : String} {t : List Char}

/-- Characters of which none is in a word that binds. -/
theorem of_forall (h : ∀ c ∈ t, c ≠ '"' ∧ c ≠ 'o') : Unbound codes x t := by
  refine .plain (fun hmem => (h _ hmem).1 rfl) fun w hw hhas => (h _ (hhas.subset ?_)).2 rfl
  rcases Bool.or_eq_true_iff.mp hw with hw | hw <;> rw [eq_of_beq hw] <;> decide

/-- A word that does not bind. -/
theorem word (ht : ∀ c ∈ t, isNameChar c) (hplain : isBinder t = false) : Unbound codes x t := by
  have hname : (String.ofList t).toList = t := String.toList_ofList
  rw [← hname]
  exact .name (isIdentifier_of_isNameChar (by rwa [hname])) (by rwa [hname])

end Unbound

/-- Names of one form are not names of the other. -/
theorem ne_of_isGenerated {y z : List Char} (hy : isGenerated y) (hz : isGenerated z = false) : y ≠ z := by
  rintro rfl
  rw [hz] at hy
  cases hy

/-- **What lowering binds is generated**, so text that is emitted binds no other names. -/
theorem Emitted.unbound {codes known : String → Prop} {flat : Bool} {t : List Char} {x : String}
    (h : Emitted (.identifiers codes) known flat t) (hx : isGenerated x.toList = false) :
    Unbound codes x t := by
  -- By induction on how the text is emitted. The rules that bind a name bind a generated one, which
  -- the name in question is not.
  induction h with
  | blank => exact .of_forall (by decide)
  | sign h =>
    refine .of_forall (List.forall_mem_singleton.mpr ?_)
    constructor <;> rintro rfl <;> cases h
  | word h hplain =>
    exact .word (List.all_eq_true.mp h) (Bool.or_eq_false_iff.mp hplain).2
  | number h =>
    refine .of_forall fun c hc => ?_
    constructor <;> rintro rfl <;> cases List.all_eq_true.mp h _ hc
  | known _ hw hplain => exact .word hw hplain
  | name h hplain => exact .name h hplain
  | package h => exact .package h
  | box h =>
    have hsafe := isIdentifier_safeName h
    rw [dropBoxIndex_of_isIdentifier hsafe]
    exact .name hsafe (isBinder_safeName _)
  | code h => exact .code h
  | literal h => exact .literal h
  | quoted h hplain =>
    have hword : Unbound codes x _ := .word (List.all_eq_true.mp h) (Bool.or_eq_false_iff.mp hplain).2
    exact .append (.append (t := ['\x27']) (.of_forall (by decide)) hword (apart_of_last rfl _))
      (.of_forall (by decide)) (apart_of_head rfl _)
  | declaration h _ _ => exact .declaration (isNameChar_of_isGenerated h) (ne_of_isGenerated h hx)
  | thunk => exact .thunk
  | parameter h _ _ => exact .head (isNameChar_of_isGenerated h) (ne_of_isGenerated h hx)
  | closure hcode hnames => exact .closure hcode hnames
  | @bracket o c t hpair _ ih =>
    obtain ⟨hopening, hclosing⟩ := isOpening_of_isPair hpair
    have hfront : Unbound codes x [o] := .of_forall (by
      rw [List.forall_mem_singleton]
      constructor <;> rintro rfl <;> cases hopening)
    have hback : Unbound codes x [c] := .of_forall (by
      rw [List.forall_mem_singleton]
      constructor <;> rintro rfl <;> cases hclosing)
    have hinner : Unbound codes x ([o] ++ t) :=
      hfront.append ih (apart_of_last (by simpa using not_isNameChar_of_isOpening hopening) t)
    exact hinner.append hback (apart_of_head (by simpa using not_isNameChar_of_isClosing hclosing) _)
  | append _ _ h ih ih' => exact .append ih ih' h
  | exposed _ ih => exact ih

/-! ### Sessions -/

section

variable {codes : String → Prop} {actions : List Action} {env : Env} {request : Request} {x : String}

/-- What lowering assigns is a word that does not bind. -/
theorem Session.Sound.unbound_of_named {session : Session} (h : session.Sound (.identifiers codes))
    (haccount : session.Accounted) {text : String} (hnamed : IsNamed text)
    (ht : text ∈ targetsOf session.statements) : Unbound codes x text.toList := by
  rcases haccount.isProperty_or_mem ht with hmem | hproperty
  · obtain ⟨⟨hint, n, -, -, -, rfl⟩, -⟩ := h.state.minted text hmem
    exact .word hnamed (isBinder_minted hint n)
  · obtain ⟨c, hc, hplain⟩ := hproperty.exists_not_isNameChar
    rw [hnamed c hc] at hplain
    cases hplain

/-- An address of a variable that holds no aggregate. -/
inductive Env.PointsAt (env : Env) (s : FunctionState) : Expr → Object → Prop where
  | intro {ν : Node} {operand : Expr} {name : String} {obj : Object}
      (address : env.TakesAddress s ν operand) (names : env.Names s operand.unparen name obj) :
      Env.PointsAt env s (.unary ν .addrOf operand) obj

/-- Such an address is an accessor, of the variable or of the element of its box. That of a variable is in
one of the boxes of the function, and that of an element in the box of the variable. -/
theorem Env.PointsAt.runIn_within {s : FunctionState} {e : Expr} {obj : Object} (h : env.PointsAt s e obj)
    (m : Nat) (desired : Option GoType) :
    (obj.escaping = false → ∃ key box s', (within (m + 1) e desired).runIn env s =
        (.ok (.atom (cachedAccessor box (objectName env.config obj))), s') ∧
      (key, box) ∈ s'.accessorBoxes) ∧
    (obj.escaping → ((within (m + 1) e desired).runIn env s).1 =
      .ok (.atom (cachedAccessor (boxName env.config obj ++ ".__ptr")
        (boxName env.config obj ++ "[0]")))) := by
  cases h with
  | intro address names =>
    refine ⟨fun hunboxed => ?_, fun hescaping => ?_⟩
    · obtain ⟨box, s', hrun, hlookup⟩ :=
        (Env.AddressesVariable.intro address names hunboxed).runIn_within m desired
      obtain ⟨front, back, hboxes, -⟩ := List.lookup_eq_some_iff.mp hlookup
      exact ⟨accessorKey (objectName env.config obj), box, s', hrun, by simp [hboxes]⟩
    · exact congrArg Prod.fst ((runIn_address_variable address names (within m) desired).trans
        (runIn_variableAccessor_escaping hescaping))

/-- **Generated names capture no others.** Whatever requests there have been for programs with identifiers
for names, with whatever outcomes and with the pending statements drained at any time, a further request
leaves a name alone that is not of the form of generated ones: no text binds it, no temporary and no box of
an accessor has it, and no statement assigns it unless it is a property of a host object.

So the accessor of a variable with such a name is kept under another name, and its setter, which takes
`_v`, assigns the variable; if the variable lives in a box, so does its accessor. -/
theorem Session.identifiers_unbound (hactions : ∀ action ∈ actions, action.Plain (.identifiers codes))
    (henv : env.Plain (.identifiers codes)) (hrequest : request.Plain (.identifiers codes))
    (hx : isGenerated x.toList = false) :
    let session := actions.foldl act {}
    let next := act session (.run env request)
    let result := (request.run.runIn env session.state).1
    (∀ f, result = .ok f → Unbound codes x f.text.toList) ∧
      (∀ text ∈ textsOf next.statements, Unbound codes x text.toList) ∧
      x ∉ next.state.temporaries ∧ (∀ box ∈ next.state.accessorBoxes, box.2 ≠ x) ∧
      (x ∈ targetsOf next.statements → IsProperty x) ∧
      ∀ e desired obj, request = .expression e desired → env.PointsAt session.state e obj →
        x ≠ "_v" ∧
          (obj.escaping = false → objectName env.config obj = x →
            ∃ box, result = .ok (.atom (cachedAccessor box x)) ∧ x ≠ box) ∧
          (obj.escaping → boxName env.config obj = x →
            result = .ok (.atom (cachedAccessor (x ++ ".__ptr") (x ++ "[0]")))) := by
  intro session next result
  have hloose : ¬ (Vocabulary.identifiers codes).strict := id
  have hsession : session.Sound (.identifiers codes) := sound_new.foldl hloose hactions
  have hnext : next.Sound (.identifiers codes) := hsession.act hloose ⟨henv, hrequest⟩
  have haccount : next.Accounted := (accounted_new.session actions).act (.run env request)
  have hother {n : String} (h : isGenerated n.toList) : n ≠ x :=
    fun heq => ne_of_isGenerated h hx (congrArg String.toList heq)
  have htemporary : x ∉ next.state.temporaries := fun h => hother (hnext.state.minted x h).2 rfl
  have hbox : ∀ box ∈ next.state.accessorBoxes, box.2 ≠ x :=
    fun box h => hother (hnext.state.boxes box h).generated
  refine ⟨fun f hf => ?_, fun text htext => ?_, htemporary, hbox, fun htarget => ?_, ?_⟩
  · exact ((hsession.answer hloose henv hrequest).result f hf).text.unbound hx
  · rcases Scoped.of_mem_texts _ hnext.statements htext with ⟨hnamed, htarget⟩ | ⟨known, hemits⟩
    · exact hnext.unbound_of_named haccount hnamed htarget
    · exact hemits.unbound hx
  · exact (haccount.isProperty_or_mem htarget).resolve_left htemporary
  · rintro e desired obj rfl hpoints
    -- How many lowerings there may be inside of that of the address.
    obtain ⟨hlocal, helement⟩ := hpoints.runIn_within (4 * e.size + 7) desired
    have hparameter : "_v" ≠ x := hother rfl
    refine ⟨hparameter.symm, fun hunboxed hname => ?_, fun hescaping hname => ?_⟩
    · obtain ⟨key, box, s', hrun, hmem⟩ := hlocal hunboxed
      obtain rfl : next.state = s' := congrArg Prod.snd hrun
      rw [hname] at hrun
      exact ⟨box, congrArg Prod.fst hrun, (hbox (key, box) hmem).symm⟩
    · rw [← hname]
      exact helement hescaping

end

/-- `&x` for an integer of a name -/
def addressOfInt (name : String) : Build Expr := do
  addressOfPlace (← Build.var name (.basic .int))

/-- All that the address of an integer brings in is its name. -/
theorem plain_addressOfInt {V : Vocabulary} {name : String} (hname : V.name name) :
    Env.Plain V { facts := ((addressOfInt name).run {}).2.facts } := by
  have hint : (GoType.basic .int).Spelled V := .basic .int
  have hpointer : (GoType.pointer (.basic .int)).Spelled V :=
    .intro ⟨by decide, fun h => by cases h⟩ fun p hp => by
      obtain rfl := List.mem_singleton.mp hp
      exact hint
  refine ⟨Facts.plain_of_forall ?_ (List.forall_mem_nil _) ?_ (List.forall_mem_nil _),
    fun _ h => by cases h⟩
  · change ∀ t ∈ [GoType.basic .int, .pointer (.basic .int)], _
    simp only [List.forall_mem_cons]
    exact ⟨hint, hpointer, List.forall_mem_nil _⟩
  · change ∀ obj ∈ [Object.var name (.basic .int)], _
    simp only [List.forall_mem_singleton]
    exact ⟨hname, fun _ h => by cases h⟩

/-- A variable with the name `_r`, which is the hint of temporaries but has no number: its address is taken
once more, after it has been lowered and the statements have been drained. -/
theorem Session.identifiers_unbound_hint :
    let e := ((addressOfInt "_r").run {}).1
    let env : Env := { facts := ((addressOfInt "_r").run {}).2.facts }
    let request := Request.expression e none
    let session := [.run env request, .drain].foldl act {}
    isGenerated "_r".toList = false ∧
      ∃ box, (request.run.runIn env session.state).1 = .ok (.atom (cachedAccessor box "_r")) ∧
        "_r" ≠ box ∧ Unbound (fun _ => False) "_r" (cachedAccessor box "_r").toList := by
  intro e env request session
  have hname : IsIdentifier "_r" := isIdentifier_of_isNameChar (by decide)
  have henv : env.Plain (.identifiers fun _ => False) := plain_addressOfInt hname
  have hrequest : request.Plain (.identifiers fun _ => False) := trivial
  have hx : isGenerated "_r".toList = false := by decide
  have hactions : ∀ action ∈ [Action.run env request, .drain],
      action.Plain (.identifiers fun _ => False) := by
    simp only [List.forall_mem_cons]
    exact ⟨⟨henv, trivial⟩, trivial, List.forall_mem_nil _⟩
  obtain ⟨hunbound, -, -, -, -, haddress⟩ := identifiers_unbound hactions henv hrequest hx
  obtain ⟨-, hunboxed, -⟩ := haddress e none (.var "_r" (.basic .int)) rfl
    (.intro ⟨⟨_, rfl, rfl⟩, rfl, ⟨_, rfl, rfl⟩⟩ (.ident rfl))
  obtain ⟨box, hresult, hne⟩ := hunboxed rfl rfl
  exact ⟨hx, box, hresult, hne, hunbound (.atom (cachedAccessor box "_r")) hresult⟩

/-- A variable with the name `_v` is captured by the setter of its own accessor, which assigns what it
takes to what it takes. -/
theorem accessor_captures :
    let e := ((addressOfInt "_v").run {}).1
    let env : Env := { facts := ((addressOfInt "_v").run {}).2.facts }
    ((lower e none).runIn env {}).1.toOption = some (.atom (cachedAccessor "_v_ptr0" "_v")) ∧
      accessorOf "_v" = "__newAccessor(function() return _v end, function(_v) _v = _v end)" := by
  refine ⟨by decide +kernel, rfl⟩

end GoLua
