import GoLua.Lower.Call
import GoLua.Proofs.Brackets.Builtin
import GoLua.Proofs.Brackets.Composite
import GoLua.Proofs.Brackets.Selector

/-!
# Calls of twins

What a call does depends on what is called, brackets aside, and the callee is `Paired`: twins of which it
is known what is inside. Arguments are twins, and so are the expressions that stand for the elements of a
tuple that is passed on.
-/

namespace GoLua

open Lower Template

variable {scene : Scene} {k l n m : Nat} {c c' b b' e e' call call' func func' : Expr}
  {args args' : List Expr}

/-! ### Arguments -/

/-- A single argument has one type on both sides. -/
theorem mirrors_spreadTypes (h : List.Forall₂ (Twin scene k l) args args') :
    Mirrors scene (spreadTypes args) (spreadTypes args') := by
  cases h with
  | nil => exact mirrors_pure rfl
  | cons hsingle hrest =>
    cases hrest with
    | cons => exact mirrors_pure rfl
    | nil =>
      refine (mirrors_typeOf hsingle.alike).bind fun type => ?_
      split
      · exact mirrors_pure rfl
      · exact mirrors_pure rfl

/-- The elements of a tuple are read by new nodes, and those are twins. -/
theorem mirrors_spreadTuple (h : Twin scene k l c c') (hk : 1 ≤ k) (hl : 1 ≤ l)
    (types : List GoType) :
    MirrorsBy scene (List.Forall₂ (Twin scene k l)) (spreadTuple (within k) c types)
      (spreadTuple (within l) c' types) := by
  refine (h.here none).bind fun value => (mirrors_keepInTemporary "_tuple" _).bind fun tuple => ?_
  refine mirrors_mapM (S := Eq) (List.forall₂_refl _) ?_
  rintro ⟨type, i⟩ _ rfl
  exact (mirrors_synthesizeVar _ type h.span).imp fun _ _ hvar => hvar.mono hk hl

/-- Either both calls spread a tuple or neither does. -/
theorem mirrors_effectiveArgs (h : List.Forall₂ (Twin scene k l) args args') (hk : 1 ≤ k)
    (hl : 1 ≤ l) :
    MirrorsBy scene (List.Forall₂ (Twin scene k l)) (effectiveArgs (within k) args)
      (effectiveArgs (within l) args') := by
  refine (mirrors_spreadTypes h).bind fun types => ?_
  cases types with
  | none => exact mirrors_pure h
  | some types =>
    cases h with
    | nil => exact mirrors_pure .nil
    | cons hsingle _ => exact mirrors_spreadTuple hsingle hk hl types

theorem mirrors_packedElem (e e' : Expr) (sig : Signature) (ellipsis : Bool) :
    Mirrors scene (packedElem e sig ellipsis) (packedElem e' sig ellipsis) := by
  refine mirrors_ite (fun _ => ?_) fun _ => mirrors_pure rfl
  split
  · exact mirrors_pure rfl
  · exact mirrors_unsupported _ _ _ _

theorem mirrors_argType (h : Alike scene c.id c'.id) (sig : Signature) (packed : Option GoType)
    (i : Nat) : Mirrors scene (argType sig packed c i) (argType sig packed c' i) := by
  unfold argType
  split
  · exact mirrors_ite (fun _ => mirrors_pure rfl) fun _ => mirrors_pure rfl
  · exact mirrors_pure rfl
  · exact mirrors_typeOf h

/-- The arguments are moved at the same places, since they leave statements alike. -/
theorem mirrors_arguments (h : List.Forall₂ (Twin scene k l) args args') (hk : 1 ≤ k) (hl : 1 ≤ l)
    (e e' : Expr) (sig : Signature) (ellipsis : Bool) :
    Mirrors scene (arguments (within k) e sig args ellipsis)
      (arguments (within l) e' sig args' ellipsis) := by
  refine (mirrors_effectiveArgs h hk hl).bind fun passed passed' hpassed => ?_
  refine (mirrors_packedElem e e' sig ellipsis).bind fun packed => ?_
  refine Mirrors.bind (mirrors_inSequence ?_ "_arg" {}) fun parts => ?_
  · rw [List.forall₂_map_left_iff, List.forall₂_map_right_iff]
    refine (forall₂_zipIdx hpassed 0).imp ?_
    rintro ⟨arg, i⟩ ⟨arg', i'⟩ ⟨harg, hi⟩
    obtain rfl : i' = i := hi
    refine (mirrors_argType harg.alike sig packed i').bind fun type => ?_
    exact (mirrors_implicitCopy harg type).bind fun _ => mirrors_pure rfl
  · cases packed <;> exact mirrors_pure rfl

/-! ### Calls of functions and methods -/

theorem mirrors_push (stmt : Statement) : Mirrors scene (push stmt) (push stmt) :=
  mirrors_leave stmt none none

/-- Whether a call suspends is recorded at its own node. -/
theorem mirrors_placeCall (hid : e'.id = e.id) (sig : Signature) (text : String) :
    Mirrors scene (placeCall e sig text) (placeCall e' sig text) := by
  refine (mirrors_isSuspending (.of_eq hid)).bind fun suspends => ?_
  refine mirrors_ite (fun _ => mirrors_newStep.bind fun step => ?_) fun _ => mirrors_pure rfl
  refine mirrors_ite (fun _ => (mirrors_push _).bind fun _ => mirrors_pure rfl) fun _ => ?_
  exact (mirrors_newTemporary "_r").bind fun _ => (mirrors_push _).bind fun _ => mirrors_pure rfl

theorem mirrors_callOf (h : List.Forall₂ (Twin scene k l) args args') (hk : 1 ≤ k) (hl : 1 ≤ l)
    (hid : e'.id = e.id) (sig : Signature) (callee : String) (ellipsis : Bool) :
    Mirrors scene (callOf (within k) e sig callee args ellipsis)
      (callOf (within l) e' sig callee args' ellipsis) :=
  (mirrors_arguments h hk hl e e' sig ellipsis).bind fun _ => mirrors_placeCall hid sig _

theorem mirrors_signatureOf (h : Alike scene func.id func'.id) :
    Mirrors scene (signatureOf func) (signatureOf func') := by
  refine (mirrors_typeOf h).bind fun type => ?_
  cases type.signature? with
  | none => exact mirrors_unsupported _ _ _ _
  | some sig => exact mirrors_pure rfl

/-- A plain call evaluates its callee and then its arguments. -/
theorem mirrors_plainCall (hfunc : Twin scene k l func func')
    (h : List.Forall₂ (Twin scene k l) args args') (hk : 1 ≤ k) (hl : 1 ≤ l) (hid : e'.id = e.id)
    (ellipsis : Bool) :
    Mirrors scene (plainCall (within k) e func args ellipsis)
      (plainCall (within l) e' func' args' ellipsis) := by
  refine (mirrors_signatureOf hfunc.alike).bind fun sig => (hfunc.here none).bind fun callee => ?_
  exact mirrors_callOf h hk hl hid sig _ ellipsis

/-! ### Methods of host objects -/

/-- The arguments of host methods are counted on both sides. -/
theorem mirrors_hostArg (h : List.Forall₂ (Twin scene k l) args args') (call call' : Expr)
    (i : Nat) :
    MirrorsBy scene (Twin scene k l) (hostArg call args i) (hostArg call' args' i) := by
  have harg := forall₂_getElem? h i
  unfold hostArg
  generalize args[i]? = arg at harg ⊢
  generalize args'[i]? = arg' at harg ⊢
  cases harg with
  | none => exact mirrors_unsupported _ _ _ _
  | some harg => exact mirrors_pure harg

theorem mirrors_nameConstant? (h : Alike scene c.id c'.id) :
    Mirrors scene (nameConstant? c) (nameConstant? c') :=
  (mirrors_constantOf h).bind fun _ => mirrors_pure rfl

/-- A property is named if its key is a known name. -/
theorem mirrors_property (h : Twin scene k l c c') (object : String) :
    Mirrors scene (property (within k) object c) (property (within l) object c') := by
  refine (mirrors_nameConstant? h.alike).bind fun name => ?_
  cases name with
  | some name => exact mirrors_pure rfl
  | none => exact (h.here none).bind fun _ => mirrors_pure rfl

/-- Arguments that are passed on start at one place. -/
theorem mirrors_passedArgs (h : List.Forall₂ (Twin scene k l) args args') (call call' : Expr)
    (start : Nat) (ellipsis : Bool) :
    Mirrors scene (passedArgs (within k) call args start ellipsis)
      (passedArgs (within l) call' args' start ellipsis) := by
  refine mirrors_ite (fun _ => ?_) fun _ => mirrors_externalizedArgs (List.forall₂_drop start h)
  refine (mirrors_hostArg h call call' start).bind fun arg arg' harg => ?_
  exact (mirrors_externalized harg).bind fun _ => mirrors_pure rfl

theorem mirrors_callProperty (h : List.Forall₂ (Twin scene k l) args args') (call call' : Expr)
    (recv : Fragment) (ellipsis : Bool) :
    Mirrors scene (callProperty (within k) call recv args ellipsis)
      (callProperty (within l) call' recv args' ellipsis) := by
  have hrest := mirrors_passedArgs h call call' 1 ellipsis
  refine (mirrors_hostArg h call call' 0).bind fun name name' hname => ?_
  refine (mirrors_nameConstant? hname.alike).bind fun id => ?_
  cases id with
  | some id => exact hrest.bind fun _ => mirrors_pure rfl
  | none =>
    refine (hname.here none).bind fun key => hrest.bind fun rest => mirrors_render _ ?_
    exact .cons (.lowered recv) (.cons (.lowered key) (.cons (.text rest) .nil))

theorem mirrors_assigned (write : HostWrite) (target value : String) :
    Mirrors scene (assigned write target value) (assigned write target value) :=
  (mirrors_leave _ none (some write)).bind fun _ => mirrors_pure rfl

/-- Each method takes its arguments at fixed places. -/
theorem mirrors_hostMethod (h : List.Forall₂ (Twin scene k l) args args') (call call' : Expr)
    (recv : Fragment) (method : String) (ellipsis : Bool) :
    Mirrors scene (hostMethod (within k) call recv method args ellipsis)
      (hostMethod (within l) call' recv method args' ellipsis) := by
  have harg := mirrors_hostArg h call call'
  -- One case for each method; the receiver is a text by now, and the same for both.
  unfold hostMethod
  dsimp only
  split
  · refine (harg 0).bind fun key key' hkey => ?_
    exact (mirrors_property hkey _).bind fun _ => mirrors_pure rfl
  · refine (harg 0).bind fun key key' hkey => (harg 1).bind fun value value' hvalue => ?_
    refine (mirrors_property hkey _).bind fun target => ?_
    exact (mirrors_externalized hvalue).bind fun _ => mirrors_assigned _ _ _
  · refine (harg 0).bind fun key key' hkey => ?_
    exact (mirrors_property hkey _).bind fun _ => mirrors_assigned _ _ _
  · exact mirrors_pure rfl
  · refine (harg 0).bind fun index index' hindex => ?_
    exact mirrors_render _ (.cons (.text _) hindex.alone)
  · refine (harg 0).bind fun index index' hindex => (harg 1).bind fun value value' hvalue => ?_
    refine (hindex.here none).bind fun place => ?_
    exact (mirrors_externalized hvalue).bind fun _ => mirrors_assigned _ _ _
  · exact mirrors_callProperty h call call' recv ellipsis
  · exact (mirrors_passedArgs h call call' 0 ellipsis).bind fun _ => mirrors_pure rfl
  · exact (mirrors_passedArgs h call call' 0 ellipsis).bind fun _ => mirrors_pure rfl
  · exact mirrors_pure rfl
  · split
    · exact mirrors_config _
    · exact mirrors_unsupported _ _ _ _

/-! ### What is called -/

/-- The receiver may be brackets on one side only, so its base is a pair and not a twin. -/
theorem mirrors_methodCall (hfunc : Alike scene func.id func'.id) (hbase : Paired scene n m b b')
    (h : List.Forall₂ (Twin scene k l) args args') (hk : n + 2 ≤ k) (hl : m + 2 ≤ l)
    (hid : e'.id = e.id) (selection : Selection) (span : Span) (ellipsis : Bool) :
    Mirrors scene (methodCall (within k) e func b selection span args ellipsis)
      (methodCall (within l) e' func' b' selection span args' ellipsis) := by
  refine (mirrors_signatureOf hfunc).bind fun sig => ?_
  refine (mirrors_receiver hbase hk hl selection span).bind fun recv => ?_
  refine (mirrors_config _).bind fun host => ?_
  refine mirrors_ite (fun _ => mirrors_hostMethod h e e' recv _ ellipsis) fun _ => ?_
  exact mirrors_callOf h (by omega) (by omega) hid sig _ ellipsis

/-- What comes back is converted by the signature, which is the same. -/
theorem mirrors_hostFieldCall (hfunc : Twin scene k l func func')
    (h : List.Forall₂ (Twin scene k l) args args') :
    Mirrors scene (hostFieldCall (within k) func args) (hostFieldCall (within l) func' args') := by
  refine (mirrors_signatureOf hfunc.alike).bind fun sig => (hfunc.here none).bind fun callee => ?_
  refine (mirrors_externalizedArgs h).bind fun passed => ?_
  dsimp only
  split
  · exact mirrors_pure rfl
  · exact mirrors_config _
  · exact (mirrors_reportError _ hfunc.span).bind fun _ => mirrors_pure rfl

theorem mirrors_firstArgument (h : List.Forall₂ (Twin scene k l) args args') (e e' : Expr) :
    Mirrors scene (firstArgument (within k) e args) (firstArgument (within l) e' args') := by
  cases h with
  | nil => exact mirrors_unsupported _ _ _ _
  | cons harg _ => exact harg.here none

theorem mirrors_denotesType (hid : e'.id = e.id) :
    Mirrors scene (denotesType e) (denotesType e') :=
  (mirrors_boundObject? hid).bind fun _ => mirrors_pure rfl

/-- Brackets around a type are looked through. -/
theorem mirrors_isTypeExpr (h : Core scene n m func.unparen func'.unparen) :
    Mirrors scene (isTypeExpr func) (isTypeExpr func') := by
  unfold isTypeExpr
  generalize func.unparen = u at h ⊢
  generalize func'.unparen = u' at h ⊢
  cases h with
  | typeExpr => exact mirrors_pure rfl
  | ident => exact mirrors_denotesType rfl
  | selector =>
    refine (mirrors_selectionOf rfl).bind fun selection => ?_
    exact mirrors_ite (fun _ => mirrors_denotesType rfl) fun _ => mirrors_pure rfl
  | literal | index | star => exact mirrors_pure rfl
  | other h h' =>
    -- What is not looked into denotes no type.
    cases u with
    | compositeLit | ident | selector | index | star | typeExpr => cases h
    | _ =>
      cases u' with
      | compositeLit | ident | selector | index | star | typeExpr => cases h'
      | _ => exact mirrors_pure rfl

/-- An identifier that is called is one object for both. -/
theorem mirrors_identifierCall (hfunc : Twin scene k l func func')
    (h : List.Forall₂ (Twin scene k l) args args') (hk : 1 ≤ k) (hl : 1 ≤ l) (hid : e'.id = e.id)
    (name : String) (ellipsis : Bool) :
    Mirrors scene (identifierCall (within k) e func name args ellipsis)
      (identifierCall (within l) e' func' name args' ellipsis) := by
  refine (mirrors_objectOf hfunc.coreId).bind fun obj => ?_
  refine mirrors_ite (fun _ => mirrors_builtin h hid name ellipsis) fun _ => ?_
  refine (mirrors_config _).bind fun host => ?_
  exact mirrors_ite (fun _ => mirrors_firstArgument h e e') fun _ =>
    mirrors_plainCall hfunc h hk hl hid ellipsis

/-- The selector that is called is the same in both runs, but for its base. -/
theorem mirrors_selectorCall {ν : Node} {sel : Expr} (hfunc : Twin scene k l func func')
    (hwhole : Twin scene k l (.selector ν b sel) (.selector ν b' sel))
    (hu : func.unparen = .selector ν b sel) (hu' : func'.unparen = .selector ν b' sel)
    (hbase : Paired scene n m b b') (h : List.Forall₂ (Twin scene k l) args args')
    (hk : n + 2 ≤ k) (hl : m + 2 ≤ l) (hid : e'.id = e.id) (ellipsis : Bool) :
    Mirrors scene (selectorCall (within k) e func b sel args ellipsis)
      (selectorCall (within l) e' func' b' sel args' ellipsis) := by
  have hplain := mirrors_plainCall hfunc h (by omega) (by omega) hid ellipsis
  unfold selectorCall
  -- What the selector stands for is noted at its own node, which is the same one.
  rw [hu, hu']
  refine (mirrors_selectionOf rfl).bind fun selection => ?_
  cases selection with
  | none =>
    refine (mirrors_objectOf rfl).bind fun obj => (mirrors_config _).bind fun host => ?_
    refine mirrors_ite (fun _ => ?_) fun _ => hplain
    split
    · exact mirrors_pure rfl
    · exact mirrors_firstArgument h e e'
    · exact hplain
  | some selection =>
    dsimp only
    cases selection.kind with
    | methodVal => exact mirrors_methodCall hfunc.alike hbase h hk hl hid selection _ ellipsis
    | fieldVal =>
      refine (mirrors_pathFrom _ _ _).bind fun path => ?_
      exact mirrors_ite (fun _ => mirrors_hostFieldCall hwhole h) fun _ => hplain
    | methodExpr => exact hplain

/-- **Calls.** -/
theorem mirrors_call (hfunc : Paired scene n m func func')
    (h : List.Forall₂ (Twin scene n m) args args') (hk : n + 2 ≤ k) (hl : m + 2 ≤ l)
    (hid : e'.id = e.id) (ellipsis : Bool) :
    Mirrors scene (Lower.call (within k) e func args ellipsis)
      (Lower.call (within l) e' func' args' ellipsis) := by
  have hcallee : Twin scene k l func func' := hfunc.toTwin.mono (by omega) (by omega)
  have hargs : List.Forall₂ (Twin scene k l) args args' :=
    h.imp fun _ _ harg => harg.mono (by omega) (by omega)
  have hplain := mirrors_plainCall hcallee hargs (by omega) (by omega) hid ellipsis
  refine (mirrors_isTypeExpr hfunc.core).bind fun denotes => mirrors_ite (fun _ => ?_) fun _ => ?_
  · cases hargs with
    | nil => exact mirrors_unsupported _ _ _ _
    | cons hvalue _ =>
      refine (mirrors_typeOf (.of_eq hid)).bind fun target => ?_
      exact mirrors_conversion hvalue (by omega) (by omega) target
  · have hcore := hfunc.core
    generalize hu : func.unparen = u at hcore ⊢
    generalize hu' : func'.unparen = u' at hcore ⊢
    cases hcore with
    | ident ν name =>
      exact mirrors_identifierCall hcallee hargs (by omega) (by omega) hid name ellipsis
    | selector hwhole hbase hcore =>
      have hwhole := hwhole.mono (k := k) (l := l) (by omega) (by omega)
      exact mirrors_selectorCall hcallee hwhole hu hu' ⟨hbase, hcore⟩ hargs hk hl hid ellipsis
    | literal | index | star | typeExpr => exact hplain
    | other h h' =>
      -- The two callees need not be of one form, but neither is a name or a selector.
      cases u with
      | compositeLit | ident | selector | index | star | typeExpr => cases h
      | _ =>
        cases u' with
        | compositeLit | ident | selector | index | star | typeExpr => cases h'
        | _ => exact hplain

end GoLua
