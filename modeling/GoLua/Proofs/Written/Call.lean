import GoLua.Lower.Call
import GoLua.Proofs.Written.Builtin

/-!
# Calls keep to the vocabulary

The elements of a spread tuple are read from a temporary, and the texts of arguments may be moved to
temporaries; both are read where they can be. The text of a plain call is flat whether it is written
where it stands or by the name of its result (`Delivers.plainCall`).
-/

namespace GoLua

open Lua

section

variable {V : Vocabulary} {env : Env} {s : FunctionState} {self : Lowering} {e func : Expr}
  {args : List Expr}

/-- A sound fragment whose text is flat, whatever it asks for. -/
structure IsFlat (V : Vocabulary) (s : FunctionState) (f : Fragment) : Prop where
  sound : IsSound V s f
  text : IsText V true s f.text

/-- A signature whose types are spelled. -/
structure Signature.Spelled (V : Vocabulary) (sig : Signature) : Prop where
  params : ∀ p ∈ sig.params, p.Spelled V
  results : ∀ r ∈ sig.results, r.Spelled V

namespace Delivers

/-! ### Looking at what is called -/

/-- The signature of a callee has types that can be spelled. -/
theorem signatureOf (henv : env.Plain V) {β : Type} {R : FunctionState → β → Prop}
    {k : Signature → LowerM β}
    (rest : ∀ sig, sig.Spelled V → Delivers V env s (k sig) R) :
    Delivers V env s (Lower.signatureOf func >>= k) R := by
  unfold Lower.signatureOf
  rw [bind_assoc]
  refine typeOf henv fun type htype => ?_
  cases hsig : type.signature? with
  | none => exact Delivers.bind (Q := fun _ _ => False) unsupported fun _ _ _ h => h.elim
  | some sig =>
    rw [pure_bind]
    obtain ⟨hparams, hresults⟩ := htype.signature hsig
    exact rest sig ⟨hparams, hresults⟩

/-- Whether an expression denotes a type is only looked up. -/
theorem isTypeExpr {β : Type} {R : FunctionState → β → Prop} {k : Bool → LowerM β}
    (rest : ∀ b, Delivers V env s (k b) R) :
    Delivers V env s (Lower.isTypeExpr func >>= k) R := by
  have hdenotes (e : Expr) : Delivers V env s (Lower.denotesType e) fun s' _ => s' = s :=
    of_still rfl (fun _ _ _ => rfl) fun _ h => (nomatch h)
  have hstill : Delivers V env s (Lower.isTypeExpr func) fun s' _ => s' = s := by
    unfold Lower.isTypeExpr
    split
    · exact .pure rfl
    · exact hdenotes _
    · exact view fun _ => ite (fun _ => hdenotes _) fun _ => .pure rfl
    · exact .pure rfl
  exact hstill.bind fun s' b _ hs => hs ▸ rest b

section

variable (hself : Lowers V self) (henv : env.Plain V)
include hself henv

/-! ### Arguments -/

/-- The elements of a spread tuple are read from the temporary that holds it. -/
theorem spreadTuple {single : Expr} (h : single.Settles V env s) {types : List GoType}
    (htypes : ∀ t ∈ types, t.Spelled V) :
    Delivers V env s (Lower.spreadTuple self single types)
      fun s' args => ∀ a ∈ args, a.Settles V env s' := by
  refine (hself.sound henv h none).bind fun s₁ value _ hvalue => ?_
  refine (keepInTemporary (by decide) hvalue.text).bind fun s₂ tuple _ htuple => ?_
  refine mapM_all (P := fun s' (a : Expr) => a.Settles V env s') (fun hgrows h => h.mono hgrows)
    fun p hp s₃ hgrows => ?_
  -- A component is read by a name that no program has; it is neither reserved nor a string.
  have htext : IsText V true s₃ (tuple ++ "[" ++ toString p.2 ++ "]") :=
    emits_joined [.put (htuple.mono hgrows).text, .text "[", .put (emits_nat p.2), .text "]"] rfl rfl
  have hsafe : safeName (tuple ++ "[" ++ toString p.2 ++ "]") = tuple ++ "[" ++ toString p.2 ++ "]" :=
    safeName_of_mem (c := '[') (by simp [String.toList_append]) (by decide)
  have hquiet : IsQuiet (tuple ++ "[" ++ toString p.2 ++ "]").toList := by
    have hdigits : IsQuiet (toString p.2).toList :=
      isQuiet_of_isNameChar fun _ hc => isNameChar_of_isDigit (isDigit_of_mem_toString hc)
    simp only [String.toList_append]
    exact ((htuple.quiet.append (by decide)).append hdigits).append (by decide)
  exact synthesizeVar ⟨hquiet, hsafe, htext⟩ (htypes p.1 (List.fst_mem_of_mem_zipIdx hp)) _

omit hself in
/-- A tuple is spread to the types it holds. -/
theorem spreadTypes :
    Delivers V env s (Lower.spreadTypes args)
      fun _ found => ∀ types, found = some types → ∀ t ∈ types, t.Spelled V := by
  have hnone : Delivers V env s (Pure.pure none)
      fun _ (found : Option (List GoType)) => ∀ types, found = some types → ∀ t ∈ types, t.Spelled V :=
    .pure fun _ h => (nomatch h)
  -- Only a single argument is spread, and only of a tuple of at least two.
  unfold Lower.spreadTypes
  split
  · refine typeOf henv fun type htype => ?_
    split
    · next types =>
      refine .pure fun types' htypes => ?_
      split at htypes
      · obtain rfl := Option.some.inj htypes
        exact fun t ht => htype.part ht
      · cases htypes
    · exact hnone
  · exact hnone

/-- The arguments of a call settle, the spread ones as components of a temporary. -/
theorem effectiveArgs (h : ∀ a ∈ args, a.Settles V env s) :
    Delivers V env s (Lower.effectiveArgs self args) fun s' args => ∀ a ∈ args, a.Settles V env s' := by
  refine (spreadTypes henv).bind fun s' found hgrows htypes => ?_
  have hargs : ∀ a ∈ args, a.Settles V env s' := fun a ha => (h a ha).mono hgrows
  split
  · exact spreadTuple hself henv (hargs _ (by simp)) (htypes _ rfl)
  · exact .pure hargs

omit hself henv in
/-- The type of what a variadic parameter collects can be spelled. -/
theorem packedElem {sig : Signature} (hsig : sig.Spelled V) (ellipsis : Bool) :
    Delivers V env s (Lower.packedElem e sig ellipsis)
      fun s' packed => s' = s ∧ ∀ elem, packed = some elem → elem.Spelled V := by
  refine ite (fun _ => ?_) fun _ => .pure ⟨rfl, fun _ h => (nomatch h)⟩
  split
  · next elem hlast =>
    refine .pure ⟨rfl, fun elem' h => ?_⟩
    obtain rfl := Option.some.inj h
    obtain ⟨param, hparam, hunderlying⟩ := Option.map_eq_some_iff.mp hlast
    exact (hsig.params param (List.mem_of_getLast? hparam)).part_of_underlying hunderlying
      (List.mem_singleton_self _)
  · exact unsupported

omit hself in
/-- Each argument has a type to be converted to, its own if there is no parameter. -/
theorem argType {sig : Signature} (hsig : sig.Spelled V) {packed : Option GoType}
    (hpacked : ∀ elem, packed = some elem → elem.Spelled V) {β : Type}
    {R : FunctionState → β → Prop} {arg : Expr} {i : Nat} {k : GoType → LowerM β}
    (rest : ∀ t, t.Spelled V → Delivers V env s (k t) R) :
    Delivers V env s (Lower.argType sig packed arg i >>= k) R := by
  have hparam {t : GoType} (h : sig.params[i]? = some t) : t.Spelled V :=
    hsig.params t (List.mem_of_getElem? h)
  unfold Lower.argType
  -- A packed argument takes the element type, a fixed one its parameter, any other its own.
  split
  · next elem =>
    have helem := hpacked elem rfl
    split
    · rw [pure_bind]
      exact rest elem helem
    · rw [pure_bind]
      cases hp : sig.params[i]? with
      | none => exact rest elem helem
      | some t => exact rest t (hparam hp)
  · next t hp =>
    rw [pure_bind]
    exact rest t (hparam hp)
  · exact typeOf henv rest

/-- The arguments are texts, and the packed ones are put into a slice. -/
theorem arguments (h : ∀ a ∈ args, a.Settles V env s) {sig : Signature} (hsig : sig.Spelled V)
    (ellipsis : Bool) :
    Delivers V env s (Lower.arguments self e sig args ellipsis) (AreTexts V) := by
  refine (effectiveArgs hself henv h).bind fun s₁ args' _ hargs => ?_
  refine (packedElem hsig ellipsis).bind fun s₂ packed _ hpacked => ?_
  obtain ⟨rfl, hpacked⟩ := hpacked
  have hparts : AreTexts V s₂ ({} : Lower.Parts).texts := fun _ h => absurd h List.not_mem_nil
  refine Delivers.bind (inSequence (by decide) (fun p hp s' hgrows => ?_) hparts)
    fun s₃ parts _ hparts => ?_
  · have harg := (hargs p.1 (List.fst_mem_of_mem_zipIdx hp)).mono hgrows
    refine argType henv hsig hpacked fun type htype => ?_
    exact (implicitCopy hself henv harg htype).bind fun s' f _ hf => .pure hf.text
  · cases packed with
    | none => exact .pure hparts
    | some elem =>
      -- What is left for the last parameter makes a slice.
      have hextra : AreTexts V s₃ (parts.texts.drop (sig.params.length - 1)) :=
        fun t ht => hparts t (List.mem_of_mem_drop ht)
      refine .pure (areTexts_append (fun t ht => hparts t (List.mem_of_mem_take ht)) fun t ht => ?_)
      obtain rfl := List.mem_singleton.mp ht
      split
      · exact (emits_nilSliceText elem).loose
      · exact (emits_sliceText hextra elem).loose

/-! ### Calls of functions and methods -/

/-- A call is its callee and the texts of its arguments, in the text or in a statement. -/
theorem callOf (h : ∀ a ∈ args, a.Settles V env s) {sig : Signature} (hsig : sig.Spelled V)
    {callee : String} (hcallee : IsText V true s callee) (ellipsis : Bool) :
    Delivers V env s (Lower.callOf self e sig callee args ellipsis) (IsFlat V) := by
  refine (arguments hself henv h hsig ellipsis).bind fun s' texts hgrows htexts => ?_
  exact (placeCall (emits_callText (hcallee.mono hgrows) htexts)).weaken fun _ _ _ h => ⟨h.1, h.2⟩

/-- Plain calls are flat. -/
theorem plainCall (hfunc : func.Settles V env s) (h : ∀ a ∈ args, a.Settles V env s) (ellipsis : Bool) :
    Delivers V env s (Lower.plainCall self e func args ellipsis) (IsFlat V) := by
  refine signatureOf henv fun sig hsig => ?_
  refine (hself.sound henv hfunc none).bind fun s' callee hgrows hcallee => ?_
  exact callOf hself henv (fun a ha => (h a ha).mono hgrows) hsig hcallee.callable ellipsis

/-- A method call goes through the host or through a `:` call. -/
theorem methodCall {base : Expr} (hbase : base.Settles V env s) (h : ∀ a ∈ args, a.Settles V env s)
    {selection : Selection} (hselection : selection.Plain V) (hkind : selection.kind = .methodVal)
    (hstarts : StartsAtValue V env base selection)
    (hkeys : selection.takesKey env.config → ∀ key, args[0]? = some key → IsKey V env key)
    (span : Span) (ellipsis : Bool) :
    Delivers V env s (Lower.methodCall self e func base selection span args ellipsis)
      (IsSound V) := by
  refine signatureOf henv fun sig hsig => ?_
  refine (receiver hself henv hbase (hstarts.embedded hkind) hselection span).bind
    fun s' recv hgrows hrecv => ?_
  have hargs : ∀ a ∈ args, a.Settles V env s' := fun a ha => (h a ha).mono hgrows
  refine config (ite (fun hhost => ?_) fun _ => ?_)
  · refine hostMethod hself henv hrecv hargs (fun hmethod => hkeys ?_) ellipsis
    rw [Selection.takesKey, hkind, hhost, hmethod]
    rfl
  have hcallee : IsText V true s' (recv.callable ++ ":" ++ safeName selection.obj.name) :=
    emits_joined [.put hrecv.callable, .text ":", .put
      (.name (V.safe hselection.name) (isBinder_safeName _))] rfl rfl
  exact (callOf hself henv hargs hsig hcallee ellipsis).weaken fun _ _ _ h => h.sound

/-- A call of a host field passes its arguments out and takes the result back in. -/
theorem hostFieldCall (hfunc : func.Settles V env s) (h : ∀ a ∈ args, a.Settles V env s) :
    Delivers V env s (Lower.hostFieldCall self func args) (IsSound V) := by
  refine signatureOf henv fun sig _ => ?_
  refine (hself.sound henv hfunc none).bind fun s₁ callee hgrows₁ hcallee => ?_
  refine (externalizedArgs hself henv fun a ha => (h a ha).mono hgrows₁).bind
    fun s₂ texts hgrows₂ htexts => ?_
  have hcall : IsSound V s₂ (.atom (callee.callable ++ "(" ++ texts ++ ")")) :=
    .atom (emits_joined [.put (hcallee.mono hgrows₂).callable, .text "(", .put htexts, .text ")"]
      rfl rfl)
  dsimp only
  split
  · exact .pure hcall
  · exact configured (hcall.internalized _ _)
  · exact (reportError _ _).bind fun s₃ _ hgrows₃ _ => .pure (hcall.mono hgrows₃)

/-- A call of `InternalObject` is its argument. -/
theorem firstArgument (h : ∀ a ∈ args, a.Settles V env s) :
    Delivers V env s (Lower.firstArgument self e args) (IsSound V) := by
  unfold Lower.firstArgument
  split
  · exact hself.sound henv (h _ (by simp)) none
  · exact unsupported

/-! ### What is called -/

/-- A name that is called is a builtin function or a function. -/
theorem identifierCall (hfunc : func.Settles V env s) (h : ∀ a ∈ args, a.Settles V env s) (name : String)
    (ellipsis : Bool) :
    Delivers V env s (Lower.identifierCall self e func name args ellipsis) (IsSound V) := by
  refine objectOf henv hfunc.unparen.here.node fun obj _ _ => ?_
  refine ite (fun _ => builtin hself henv h name ellipsis) fun _ => config ?_
  refine ite (fun _ => firstArgument hself henv h) fun _ => ?_
  exact (plainCall hself henv hfunc h ellipsis).weaken fun _ _ _ h => h.sound

/-- A selector that is called is a function of a package, a method, or a field. -/
theorem selectorCall {n : Node} {base sel : Expr} (hfunc : func.Settles V env s)
    (hsel : func.unparen = .selector n base sel) (h : ∀ a ∈ args, a.Settles V env s)
    {ellipsis : Bool} {node : Node}
    (hregular : V.strict → (Expr.call node func args ellipsis).Regular V env) :
    Delivers V env s (Lower.selectorCall self e func base sel args ellipsis) (IsSound V) := by
  have hunparen := hfunc.unparen
  rw [hsel] at hunparen
  have hbase : base.Settles V env s := hunparen.part (by simp [Expr.parts])
  have hselSettles : sel.Settles V env s := hunparen.part (by simp [Expr.parts])
  -- What is left over everywhere is a plain call.
  have hplain : Delivers V env s (Lower.plainCall self e func args ellipsis) (IsSound V) :=
    (plainCall hself henv hfunc h ellipsis).weaken fun _ _ _ h => h.sound
  unfold Lower.selectorCall
  rw [hsel]
  refine assuming fun hs => selectionOf henv ?_ fun selection hselection hfound => ?_
  · refine objectOf henv hselSettles.here.node fun obj _ _ => config (ite (fun _ => ?_) fun _ => hplain)
    split
    · exact .pure (.atom (emits_text rfl))
    · exact firstArgument hself henv h
    · exact hplain
  · dsimp only
    split
    · next hkind =>
      exact methodCall hself henv hbase h hselection hkind (hs.startsAtValue hunparen.here.regular hfound)
        (fun htakes key => hs.isKey hregular hsel hfound htakes) _ ellipsis
    · refine pathFrom hselection.recv fun path _ => ite (fun _ => ?_) fun _ => hplain
      exact hostFieldCall hself henv (hsel ▸ hfunc.unparen) h
    · exact hplain

/-- A call is a conversion when its callee is a type. -/
theorem callExpr (hfunc : func.Settles V env s) (h : ∀ a ∈ args, a.Settles V env s)
    {ellipsis : Bool} {node : Node}
    (hregular : V.strict → (Expr.call node func args ellipsis).Regular V env) :
    Delivers V env s (Lower.call self e func args ellipsis) (IsSound V) := by
  refine isTypeExpr fun denotesType => ite (fun _ => ?_) fun _ => ?_
  · split
    · next value rest =>
      exact typeOf henv fun target htarget => conversion hself henv (h value (by simp)) htarget
    · exact unsupported
  · split
    · exact identifierCall hself henv hfunc h _ ellipsis
    · exact selectorCall hself henv hfunc ‹_› h hregular
    · exact (plainCall hself henv hfunc h ellipsis).weaken fun _ _ _ h => h.sound

/-- A call of a function of the library is a plain one. -/
theorem libraryCall {node : Node} (hcall : IsLibraryCall env s (.call node func args ellipsis))
    (hfunc : func.Settles V env s) (h : ∀ a ∈ args, a.Settles V env s) :
    Delivers V env s (Lower.call self e func args ellipsis) (IsFlat V) := by
  obtain ⟨_, callee, name, _, obj, heq, hobj, hkind, hpackage⟩ := hcall
  cases heq
  -- The callee is a function, so it is no type, and its package is no host package: what is left is
  -- a plain call.
  have hvalue : (Lower.isTypeExpr (.ident callee name)).runIn env s = (.ok false, s) := by
    have hdenotes : (env.binding s callee.id).object?.any (·.kind == .typeName) = false := by
      rw [hobj, Option.any_some, hkind]
      rfl
    exact congrArg (fun b => (Except.ok b, s)) hdenotes
  unfold Lower.call
  refine look hvalue fun _ => objectOf henv hfunc.here.node fun obj' _ hobj' => ?_
  obtain rfl := Option.some.inj (hobj.symm.trans hobj')
  rw [if_neg (by rw [hkind]; decide)]
  refine config ?_
  have hhost : env.config.isHostPackage obj.package = false := by
    rw [hpackage]
    unfold Config.isHostPackage
    split <;> simp_all
  rw [hhost]
  exact plainCall hself henv hfunc h false

end

end Delivers

end

end GoLua
