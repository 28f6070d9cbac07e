import GoLua.Lower.Unary
import GoLua.Proofs.Written.Tag

/-!
# Receivers, selectors and unary operators keep to the vocabulary

Names of fields are inserted into patterns as chains of accesses. New nodes that lowering puts around
what it was given use generated names, which may be read where the nodes are lowered.
-/

namespace GoLua

open Lua Template

section

variable {V : Vocabulary} {env : Env} {s : FunctionState} {self : Lowering} {e : Expr}

namespace Delivers

section

variable (hself : Lowers V self) (henv : env.Plain V)
include hself henv

/-! ### Fields -/

/-- A chain of accesses behind an operand. -/
theorem renderAccess {base : Expr} (hbase : base.Settles V env s) {access : String}
    (haccess : IsText V true s access) (hhead : access.toList.head?.any isNameChar = false)
    (hinert : Inert access) :
    Delivers V env s (render self ("%e" ++ access) [base]) (IsSound V) := by
  have hflat : (patternFlat [.value] [.text "%e", .insert true true]).any (false || ·) := rfl
  refine renderAs hself henv (.cons (.expr hbase) .nil) [.text "%e", .tail haccess hhead] ?_ hflat rfl
  simp only [List.forall_mem_cons]
  exact ⟨trivial, hinert, by simp⟩

/-- A field is read along its path, or as a property of the host object it ends in. -/
theorem field {base : Expr} (hbase : base.Settles V env s) (hvalue : V.strict → base.IsValue env.facts)
    {selection : Selection} (hselection : selection.Plain V) (span : Span) :
    Delivers V env s (Lower.field self base selection span) (IsSound V) := by
  refine pathFrom hselection.recv fun path hpath => ?_
  split
  · next holder tag hhost =>
    obtain ⟨hholder, hinert, htag⟩ := hpath.host holder tag hhost
    have hnames : ∀ name ∈ path.names.dropLast ++ [holder], FieldName V name ∧ Inert name := by
      intro name hname
      rcases List.mem_append.mp hname with hname | hname
      · exact ⟨hpath.names name (List.dropLast_subset _ hname),
          hpath.inert name (List.dropLast_subset _ hname)⟩
      · obtain rfl := List.mem_singleton.mp hname
        exact ⟨hholder, hinert⟩
    have hchain : IsText V true s (accessChain (path.names.dropLast ++ [holder])) :=
      emits_accessChain fun name hname => (hnames name hname).1
    have hhead := head?_accessChain (path.names.dropLast ++ [holder])
    have hinertChain := inert_accessChain fun name hname => (hnames name hname).2
    have hread : Delivers V env s (render self ("%e" ++
        (accessChain (path.names.dropLast ++ [holder]) ++ "[" ++ quote tag ++ "]")) [base])
        -- Where only strict texts are asked for, the tag may hold percent signs; elsewhere it is
        -- inert.
        (IsSound V) := by
      by_cases hstrict : V.strict
      · exact renderTagged hself henv hstrict hbase (hvalue hstrict) hchain hhead hinertChain tag
      refine renderAccess hself henv hbase (emits_joined [.put hchain, .text "[",
        .put (emits_quote tag), .text "]"] rfl rfl) ?_ ?_
      · simp only [String.toList_append, List.append_assoc, List.head?_append]
        cases hfirst : (accessChain (path.names.dropLast ++ [holder])).toList.head? with
        | none => rfl
        | some c =>
          rw [hfirst] at hhead
          exact hhead
      · exact inert_bracketed (inert_append hinertChain (by decide)) (inert_quote (htag hstrict))
          (by decide)
    exact hread.bind fun s' raw _ hraw => configured (hraw.internalized _ _)
  · exact renderAccess hself henv hbase (emits_accessChain hpath.names) (head?_accessChain _)
      (inert_accessChain hpath.inert)

/-! ### Receivers -/

omit hself henv in
/-- The base of a promoted method is the field it is promoted from. -/
theorem embeddedBase {base : Expr} (hbase : base.Settles V env s) {selection : Selection}
    (hvalue : V.strict → 1 < selection.index.length → base.IsValue env.facts)
    (hselection : selection.Plain V) (span : Span) :
    Delivers V env s (Lower.embeddedBase base selection span) fun s' recv => recv.Settles V env s' := by
  refine ite (fun _ => .pure hbase) fun hlong => pathFrom hselection.recv fun path hpath => ?_
  refine (synthesizeNode hpath.type span).bind fun s₁ selNode hgrows₁ hselNode => ?_
  refine (synthesizeNode hpath.type span).bind fun s₂ node hgrows₂ hnode => ?_
  have hrecord : ({ selection with
      kind := .fieldVal, index := selection.index.dropLast, type := path.type } : Selection).Plain V :=
    ⟨hselection.recv, hselection.name, hselection.inert⟩
  refine (recordSelection hnode hrecord rfl).bind fun s₃ _ hgrows₃ _ => .pure ?_
  -- The new node selects from the old base, so it settles when that one does.
  refine IsNewNode.settles (hnode.mono hgrows₃)
    (fun hstrict => .inl (hvalue hstrict (Nat.lt_of_not_le hlong))) fun c hc => ?_
  rcases List.mem_cons.mp hc with rfl | hc
  · exact hbase.mono ((hgrows₁.trans hgrows₂).trans hgrows₃)
  · obtain rfl := List.mem_singleton.mp hc
    exact IsNewNode.settles (hselNode.mono (hgrows₂.trans hgrows₃)) (fun _ => trivial)
      fun _ h => absurd h List.not_mem_nil

/-- The value of a receiver is dereferenced where the type asks for it. -/
theorem receiverValue {recv : Expr} (h : recv.Settles V env s) {type : GoType}
    (htype : type.Spelled V) (span : Span) :
    Delivers V env s (Lower.receiverValue self recv type span) (IsSound V) := by
  unfold Lower.receiverValue
  split
  · next elem helem =>
    have helem := htype.pointerElem helem
    refine (synthesizeNode helem span).bind fun s' node hgrows hnode => ?_
    refine implicitCopy hself henv (IsNewNode.settles (e := .star node recv) hnode (fun _ => trivial)
      fun c hc => ?_) helem
    obtain rfl := List.mem_singleton.mp hc
    exact h.mono hgrows
  · exact implicitCopy hself henv h htype

/-- The receiver of a method is the field it belongs to. -/
theorem receiver {base : Expr} (hbase : base.Settles V env s) {selection : Selection}
    (hvalue : V.strict → 1 < selection.index.length → base.IsValue env.facts)
    (hselection : selection.Plain V) (span : Span) :
    Delivers V env s (Lower.receiver self base selection span) (IsSound V) := by
  refine (embeddedBase hbase hvalue hselection span).bind fun s₁ recv _ hrecv => ?_
  have hlower : Delivers V env s₁ (self recv none) (IsSound V) := hself.sound henv hrecv none
  refine typeOf henv fun type htype => ite (fun _ => hlower) fun _ => ite (fun _ => ?_) fun _ => ?_
  · refine ite (fun _ => hlower) fun _ => ?_
    refine (synthesizeNode htype.pointer span).bind fun s₂ node hgrows hnode => ?_
    refine hself.sound henv (IsNewNode.settles (e := .unary node .addrOf recv) hnode
      (fun _ => trivial) fun c hc => ?_) none
    obtain rfl := List.mem_singleton.mp hc
    exact hrecv.mono hgrows
  · refine (receiverValue hself henv hrecv htype span).bind fun s₂ value _ hvalue => config ?_
    refine ite (fun _ => ?_) fun _ => .pure hvalue
    exact renderAround hself henv _ [.value] (.cons (.lowered hvalue) .nil) (emits_quote _)
      (inert_quote htype.throughPointer.inert) rfl

/-! ### Selectors -/

/-- A selector reads a field, or quotes the name of the method. -/
theorem selector {n : Node} {base sel : Expr} (h : (Expr.selector n base sel).Settles V env s) :
    Delivers V env s (Lower.selector self (.selector n base sel) base sel) (IsSound V) := by
  have hbase : base.Settles V env s := h.part (by simp [Expr.parts])
  have hsel : sel.Settles V env s := h.part (by simp [Expr.parts])
  refine assuming fun hs => selectionOf henv (identifier henv hsel.here.node _)
    fun selection hselection hfound => ?_
  have hstarts := hs.startsAtValue h.here.regular hfound
  have hname (s : FunctionState) : IsText V true s (quote selection.obj.name) := emits_quote _
  dsimp only
  -- Fields, then methods of a value, then methods of a type, whose receiver is named if it has a
  -- name.
  split
  · next hkind =>
    exact field hself henv hbase (fun hstrict => hstarts hstrict (by rw [Selection.isAlongFields, hkind]))
      hselection _
  · next hkind =>
    refine (receiver hself henv hbase (hstarts.embedded hkind) hselection _).bind fun s' recv _ hrecv => ?_
    exact renderAround hself henv (Support.methodVal ++ "(%e, ") [.value] (.cons (.lowered hrecv) .nil)
      (hname s') (inert_quote hselection.inert) rfl
  · refine .pure (.atom ?_)
    split
    · refine emits_supportCall rfl ?_
      simp only [List.forall_mem_cons]
      exact ⟨hname s, by simp⟩
    · refine emits_supportCall rfl ?_
      simp only [List.forall_mem_cons]
      exact ⟨emits_quote _, hname s, by simp⟩

/-! ### Addresses -/

omit hself henv in
/-- The address of a variable is an accessor around its name. -/
theorem variableAccessor {obj : Object} (hobj : obj.Sound V (Readable V s)) :
    Delivers V env s (Lower.variableAccessor obj) (IsSound V) := by
  refine ite (fun hescaping => config (.pure (.atom ?_))) fun _ => config ?_
  · have hbox : IsText V true s (boxName env.config obj) := hobj.boxName hescaping _
    have hcache : IsText V true s (boxName env.config obj ++ ".__ptr") :=
      emits_joined [.put hbox, .text ".__ptr"] rfl rfl
    have hplace : IsText V true s (boxName env.config obj ++ "[0]") :=
      emits_joined [.put hbox, .text "[0]"] rfl rfl
    exact emits_cachedAccessor hcache hplace
  · have hname : IsText V true s (objectName env.config obj) := hobj.objectName _
    refine (accessorBox _ (isGeneratedHint_accessorKey _)).bind fun s' box hgrows hbox => .pure (.atom ?_)
    exact emits_cachedAccessor hbox (hname.mono hgrows)

/-- The address of a field is an accessor around its path. -/
theorem fieldAccessor {base : Expr} (hbase : base.Settles V env s) {path : FieldPath}
    (hpath : path.Spelled V) :
    Delivers V env s (Lower.fieldAccessor self base path) (IsSound V) := by
  have hflat : (patternFlat [.value] [.text "(%1e.", .insert true false, .text " or (",
      .insert true false, .text " %1e.", .insert true false, .text " = ",
      .text Support.newAccessor, .text "(", .insert true false, .text " return %1e", .insert true true,
      .text " end, ", .insert true false, .text " %1e", .insert true true, .text " = _v end)",
      .text "; return %1e.", .insert true false, .text " end)())"]).any (false || ·) := by
    decide +kernel
  have hkey (key : String) : "%1e.__ptr_" ++ accessorKey key = "%1e." ++ ("__ptr_" ++ accessorKey key) := by
    rw [← String.append_assoc]
    rfl
  have hcache : IsText V true s ("__ptr_" ++ accessorKey ("_".intercalate path.names)) :=
    emits_cacheName _
  have hchain : IsText V true s (accessChain path.names) := emits_accessChain hpath.names
  have hhead := head?_accessChain path.names
  unfold Lower.fieldAccessor
  rw [hkey]
  refine renderAs hself henv (.cons (.expr hbase) .nil) [.text "(%1e.", .put hcache, .text " or (",
      .put emits_thunk, .text " %1e.", .put hcache, .text " = ",
      .text Support.newAccessor, .text "(", .put emits_thunk, .text " return %1e", .tail hchain hhead,
      .text " end, ", .put emits_setterHead, .text " %1e", .tail hchain hhead, .text " = _v end)",
      .text "; return %1e.", .put hcache, .text " end)())"] ?_ hflat ?_
  · have hinert : Inert ("__ptr_" ++ accessorKey ("_".intercalate path.names)) :=
      inert_append (by decide) (inert_accessorKey _)
    have hinertChain := inert_accessChain hpath.inert
    have hinertThunk : Inert "function()" := by decide
    have hinertHead : Inert "function(_v)" := by decide
    simp only [List.forall_mem_cons, List.not_mem_nil, false_implies, implies_true, IsInsertable,
      hinert, hinertChain, hinertThunk, hinertHead, and_self]
  · simp [Lower.cachedAccessor, Lower.accessorOf, joined, Part.string, ← String.toList_inj]

/-- The address of a place depends on the form of the place. -/
theorem placeAddress {target : Expr} (h : target.Settles V env s) {type : GoType}
    (htype : type.Spelled V) :
    Delivers V env s (Lower.placeAddress self e target type) (IsSound V) := by
  have hname : IsText V true s (quote type.text) := emits_quote _
  have hinert := inert_quote htype.inert
  cases target with
  | compositeLit n elements =>
    exact renderAround hself henv (Support.newDataPointer ++ "(%e, ") [.value] (.cons (.expr h) .nil)
      hname hinert rfl
  | ident n name => exact objectOf henv h.here.node fun obj hobj _ => variableAccessor hobj
  | selector n base sel =>
    have hbase : base.Settles V env s := h.part (by simp [Expr.parts])
    have hsel : sel.Settles V env s := h.part (by simp [Expr.parts])
    refine selectionOf henv (objectOf henv hsel.here.node fun obj hobj _ => variableAccessor hobj)
      fun selection hselection _ => ite (fun _ => ?_) fun _ => unsupported
    exact pathFrom hselection.recv fun path hpath => fieldAccessor hself henv hbase hpath
  | index n base place =>
    have hbase : base.Settles V env s := h.part (by simp [Expr.parts])
    have hplace : place.Settles V env s := h.part (by simp [Expr.parts])
    exact renderAround hself henv (Support.indexPtr ++ "(%e, %e, ") [.value, .value]
      (.cons (.expr hbase) (.cons (.expr hplace) .nil)) hname hinert rfl
  | star n inner => exact hself.sound henv (h.part (by simp [Expr.parts])) none
  | _ => exact unsupported

/-- Host objects and aggregates are their own addresses; any other place has an accessor. -/
theorem addressOf {operand : Expr} (h : operand.Settles V env s) :
    Delivers V env s (Lower.addressOf self e operand) (IsSound V) := by
  refine typeOf henv fun type htype => config (ite (fun _ => ?_) fun _ => ?_)
  · exact renderOne hself henv (.expr h) rfl
  refine typeOf henv fun operandType _ => ite (fun _ => hself.sound henv h none) fun _ => ?_
  exact placeAddress hself henv h.unparen htype

/-- A pointer is read through its accessor, or as it is. -/
theorem dereference {operand : Expr} (h : operand.Settles V env s) :
    Delivers V env s (Lower.dereference self e operand) (IsSound V) := by
  refine typeOf henv fun pointer _ => config (ite (fun _ => wrappedHostObject hself henv h) fun _ => ?_)
  refine typeOf henv fun type _ => ite (fun _ => hself.sound henv h none) fun _ => ?_
  exact renderOne hself henv (.expr h) rfl

/-! ### Receives -/

/-- The call that stands for a receive is one of the library, so its text is flat as it is. -/
theorem receive {operand : Expr} (h : operand.Settles V env s) :
    Delivers V env s (Lower.receive self e operand) (IsSound V) := by
  refine typeOf henv fun chanType hchan => typeOf henv fun type _ => ?_
  dsimp only
  split
  · next elem hunderlying =>
    have helem : elem.Spelled V := hchan.part_of_underlying hunderlying (List.mem_singleton_self _)
    have hresult : (GoType.tuple [elem, .basic .bool]).Spelled V := by
      refine .tuple ?_
      simp only [List.forall_mem_cons]
      exact ⟨helem, .basic _, by simp⟩
    have htype : (GoType.func
        { params := [chanType], results := [.tuple [elem, .basic .bool]] }).Spelled V :=
      .func (fun p hp => by cases List.mem_singleton.mp hp; exact hchan) hresult
    have hsafe : safeName Support.recv = Support.recv :=
      safeName_of_mem (c := '_') (by decide) (by decide)
    have hobj (type : GoType) : (Object.func Support.recv type).Sound V (Readable V s) :=
      .of_local (hsafe.symm ▸ emits_text rfl) (show IsQuiet Support.recv.toList by decide) rfl rfl
    refine (synthesizeUse (hobj _) (fun h => nomatch h) htype _).bind fun s₁ callee hgrows₁ hcallee => ?_
    obtain ⟨hsettles, calleeNode, rfl, hid, huse⟩ := hcallee
    refine (synthesizeNode hresult _).bind fun s₂ node hgrows₂ hnode => ?_
    refine (markSuspending _).bind fun s₃ _ hgrows₃ huses => ?_
    have hcall : (Expr.call node (.ident calleeNode Support.recv) [operand] false).Settles V env s₃ := by
      refine IsNewNode.settles (hnode.mono hgrows₃) (fun _ _ _ _ _ h => nomatch h) fun c hc => ?_
      rcases List.mem_cons.mp hc with rfl | hc
      · exact hsettles.mono (hgrows₂.trans hgrows₃)
      · obtain rfl := List.mem_singleton.mp hc
        exact h.mono ((hgrows₁.trans hgrows₂).trans hgrows₃)
    have hbare : IsBare env s₃ (.call node (.ident calleeNode Support.recv) [operand] false) := by
      -- The callee is bound to the function of the library from here on.
      have hbound := (congrArg (·.get? calleeNode.id) huses).trans ((hgrows₂.uses _ hid).trans huse)
      exact .inr (isLibraryCall_of_use hbound rfl rfl)
    refine (hself henv hcall none).bind fun s₄ received _ hreceived => .pure ?_
    split
    · exact hreceived.sound
    · exact .atom (emits_joined [.put (hreceived.bare hbare), .text "[0]"] rfl rfl)
  · exact unsupported

/-! ### Operators -/

/-- Each operator has a pattern of its own. -/
theorem unaryOperator {operand : Expr} (h : operand.Settles V env s) (op : UnaryOp) :
    Delivers V env s (Lower.unaryOperator self e operand op) (IsSound V) := by
  refine typeOf henv fun type _ => ?_
  split
  · exact unsupported
  have hcut {kind : Kind} {pattern : String}
      (hflat : (patternFlat [.value] [.text pattern]).any (true || ·)) :
      Delivers V env s (return cutToWidth (← renderParen self pattern [operand]) kind) (IsSound V) :=
    Delivers.bind (Q := IsSound V) (renderOne hself henv (.expr h) hflat) fun s' value _ hvalue =>
      .pure (hvalue.cutToWidth kind)
  split
  · exact ite (fun _ => renderOne hself henv (.expr h) rfl) fun _ => hcut rfl
  · exact hcut rfl
  · exact renderOne hself henv (.expr h) rfl
  · exact hself.sound henv h none

/-- Any unary expression is sound. -/
theorem unary {op : UnaryOp} {operand : Expr} (h : operand.Settles V env s) :
    Delivers V env s (Lower.unary self e op operand) (IsSound V) := by
  unfold Lower.unary
  split
  · exact addressOf hself henv h
  · exact receive hself henv h
  · exact unaryOperator hself henv h op

end

end Delivers

end

end GoLua
