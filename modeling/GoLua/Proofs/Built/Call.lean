import GoLua.Lower.Call
import GoLua.Proofs.Built.Builtin
import GoLua.Proofs.Built.Selector

/-!
# Calls

How methods of host objects and calls are put together. A tuple that is spread over the parameters is
lowered once, into a temporary, and what takes its place are the elements of that temporary.
-/

namespace GoLua.Built

open Lua

variable {S : Setting} {I : NodeId → Prop} {α : Type} {w : Nat} {Q : α → Prop} {call e : Expr}
  {args : List Expr}

/-! ### Methods of host objects -/

/-- The arguments of a host method are those of the call. -/
theorem hostArg (args : List Expr) (i : Nat) :
    Built S I 0 (Lower.hostArg call args i) fun a => args[i]? = some a := by
  unfold Lower.hostArg
  split
  · exact .pure ‹_›
  · exact unsupported

/-- The key of a property is paid for once, also where it is a name. -/
theorem property (object : String) {key : Expr} (h : key.Fits S I) :
    Built S I (S.prices.price key) (Lower.property S.self object key) (IsPropertyOf object) := by
  refine (nameConstant? h.id).free fun name hname => ?_
  split
  · exact .pure (.named (hname _ rfl))
  · exact (lower h none).seq (Nat.le_refl _) fun text _ => .pure (isPropertyOf_propertyIndex _ _)

/-- What is passed on is behind the first arguments. -/
theorem passedArgs (h : ∀ a ∈ args, a.Fits S I) (start : Nat) (ellipsis : Bool) :
    Builds S I (argsPrice S (args.drop start))
      (Lower.passedArgs S.self call args start ellipsis) := by
  refine ite (fun _ => ?_) fun _ => externalizedArgs fun a ha => h a (List.mem_of_mem_drop ha)
  refine (hostArg args start).free fun a ha => ?_
  have hdrop : (args.drop start)[0]? = some a := by simpa using ha
  exact (externalized (h a (List.mem_of_getElem? ha))).seq (price_le_args hdrop)
    fun text _ => .pure trivial

/-- A called property takes the first argument for its key and passes on the rest. -/
theorem callProperty (h : ∀ a ∈ args, a.Fits S I) (recv : Fragment) (ellipsis : Bool) :
    Builds S I (argsPrice S args) (Lower.callProperty S.self call recv args ellipsis) := by
  refine (hostArg args 0).free fun name hname => ?_
  -- The name is the first argument, and what is passed on are the others.
  obtain ⟨rest, rfl⟩ : ∃ rest, args = name :: rest := by
    cases args with
    | nil => simp at hname
    | cons a rest => exact ⟨rest, by simpa using hname⟩
  have hfits := h name (by simp)
  have hrest : Builds S I (argsPrice S rest)
      (Lower.passedArgs S.self call (name :: rest) 1 ellipsis) := passedArgs h 1 ellipsis
  have hcost : argsPrice S (name :: rest) = S.prices.price name + argsPrice S rest := sumOf_cons _ _ _
  refine (nameConstant? hfits.id).free fun id _ => ?_
  split
  · exact hrest.seq (by omega) fun texts _ => .pure trivial
  · refine (lower hfits none).seq (by omega) fun key _ => hrest.seq (by omega) fun texts _ => ?_
    refine (renderAs [.lowered recv, .lowered key, .text texts] ?_ false _).spending ?_
    · simp [Operand.Fits]
    · exact Nat.zero_le _

/-- A host method costs at most its arguments. -/
theorem hostMethod (h : ∀ a ∈ args, a.Fits S I) (recv : Fragment) (method : String)
    (ellipsis : Bool) :
    Builds S I (argsPrice S args) (Lower.hostMethod S.self call recv method args ellipsis) := by
  unfold Lower.hostMethod
  dsimp only
  -- One case for each method; the two that write a value evaluate two different arguments.
  split
  · refine (hostArg args 0).free fun key hkey => ?_
    exact (property _ (h key (List.mem_of_getElem? hkey))).seq (price_le_args hkey)
      fun text _ => .pure trivial
  · refine (hostArg args 0).free fun key hkey => (hostArg args 1).free fun value hvalue => ?_
    have hcost := price_add_price_le_args (S := S) Nat.zero_lt_one hkey hvalue
    refine (property _ (h key (List.mem_of_getElem? hkey))).seq (by omega) fun target htarget => ?_
    exact (externalized (h value (List.mem_of_getElem? hvalue))).seq (by omega)
      fun text _ => (assigned (.set _) _ _ htarget).spending (Nat.zero_le _)
  · refine (hostArg args 0).free fun key hkey => ?_
    exact (property _ (h key (List.mem_of_getElem? hkey))).seq (price_le_args hkey)
      fun target htarget => (assigned (.delete _) _ _ htarget).spending (Nat.zero_le _)
  · exact .pure trivial
  · refine (hostArg args 0).free fun index hindex => ?_
    refine (renderAs [.text recv.callable, .expr index] ?_ false _).spending ?_
    · simpa [Operand.Fits] using h index (List.mem_of_getElem? hindex)
    · simpa [Setting.price] using price_le_args (S := S) hindex
  · refine (hostArg args 0).free fun index hindex => (hostArg args 1).free fun value hvalue => ?_
    have hcost := price_add_price_le_args (S := S) Nat.zero_lt_one hindex hvalue
    refine (lower (h index (List.mem_of_getElem? hindex)) none).seq (by omega) fun place _ => ?_
    exact (externalized (h value (List.mem_of_getElem? hvalue))).seq (by omega)
      fun text _ => (assigned (.setIndex _) _ _ (.indexed _)).spending (Nat.zero_le _)
  · exact callProperty h recv ellipsis
  · exact (passedArgs h 0 ellipsis).seq (Nat.le_refl _) fun texts _ => .pure trivial
  · exact (passedArgs h 0 ellipsis).seq (Nat.le_refl _) fun texts _ => .pure trivial
  · exact .pure trivial
  · split
    · exact (config _).spending (Nat.zero_le _)
    · exact unsupported

/-! ### Arguments -/

/-- Whether a tuple is spread is found by its type. -/
theorem spreadTypes (h : ∀ a ∈ args, a.Fits S I) : Builds S I 0 (Lower.spreadTypes args) := by
  unfold Lower.spreadTypes
  split
  · refine (typeOf (h _ (by simp)).id).free fun type _ => ?_
    split <;> exact .pure trivial
  · exact .pure trivial

/-- The elements of a tuple are names of new nodes. -/
theorem tupleElements (tuple : String) (span : Span) (types : List (GoType × Nat))
    {k : List Expr → LowerM α}
    (rest : ∀ (J : NodeId → Prop) (elements : List Expr), (∀ x, I x → J x) →
      (∀ a ∈ elements, a.Fits S J ∧ S.prices.price a = 0) → Built S J w (k elements) Q) :
    Built S I w ((types.mapM fun (type, i) =>
      Lower.synthesizeVar (tuple ++ "[" ++ toString i ++ "]") type span) >>= k) Q := by
  induction types generalizing I k with
  | nil => exact rest I [] (fun _ hx => hx) (by simp)
  | cons type types ih =>
    simp only [List.mapM_cons, bind_assoc, pure_bind]
    refine synthesizeUse _ _ _ _ fun node _ => ih fun J elements hJ helements => ?_
    refine rest J _ (fun x hx => hJ x (withNode_of _ hx)) fun a ha => ?_
    rcases List.mem_cons.mp ha with rfl | ha
    · exact ⟨fits_ident (hJ _ (withNode_self _ _)) _, S.prices.price_ident _ _⟩
    · exact helements a ha

/-- The arguments that are passed cost no more than those written: a tuple is evaluated when it is
kept, and its elements are names. -/
theorem effectiveArgs (h : ∀ a ∈ args, a.Fits S I) {k : List Expr → LowerM α}
    (rest : ∀ (J : NodeId → Prop) (args' : List Expr), (∀ x, I x → J x) →
      (∀ a ∈ args', a.Fits S J) → Built S J (argsPrice S args') (k args') Q) :
    Built S I (argsPrice S args) (Lower.effectiveArgs S.self args >>= k) Q := by
  unfold Lower.effectiveArgs Lower.spreadTuple
  simp only [bind_assoc]
  refine (spreadTypes h).free fun types _ => ?_
  split
  · next types single others =>
    simp only [bind_assoc]
    refine (lower (h single (by simp)) none).seq (price_le_args (i := 0) rfl) fun value _ => ?_
    -- The tuple is paid for by the single argument; its elements are names, and free.
    refine (keepInTemporary _ _ (by decide)).free fun tuple _ => ?_
    refine tupleElements _ _ _ fun J elements hJ helements => ?_
    have hfree : argsPrice S elements = 0 := sumOf_eq_zero fun a ha => (helements a ha).2
    exact (rest J elements hJ fun a ha => (helements a ha).1).spending (hfree ▸ Nat.zero_le _)
  · rw [pure_bind]
    exact rest I args (fun _ hx => hx) h

theorem packedElem (sig : Signature) (ellipsis : Bool) :
    Builds S I w (Lower.packedElem e sig ellipsis) := by
  refine ite (fun _ => ?_) fun _ => .pure trivial
  split
  · exact .pure trivial
  · exact unsupported

/-- The type of an argument is looked up. -/
theorem argType (sig : Signature) (packed : Option GoType) {arg : Expr} (h : I arg.id) (i : Nat) :
    Builds S I 0 (Lower.argType sig packed arg i) := by
  unfold Lower.argType
  split
  · exact ite (fun _ => .pure trivial) fun _ => .pure trivial
  · exact .pure trivial
  · exact typeOf h

/-- Each argument is paid for once, also when it has to move. -/
theorem arguments (h : ∀ a ∈ args, a.Fits S I) (sig : Signature) (ellipsis : Bool) :
    Builds S I (argsPrice S args) (Lower.arguments S.self e sig args ellipsis) := by
  refine effectiveArgs h fun J args' _ hargs' => (packedElem sig ellipsis).free fun packed _ => ?_
  have hcost : sumOf (fun p : Expr × Nat => S.prices.price p.1) args'.zipIdx = argsPrice S args' := by
    rw [← sumOf_map S.prices.price Prod.fst, List.zipIdx_map_fst]
  rw [← hcost]
  refine (inSequence (fun p hp => ?_) "_arg" (by decide) {}).seq (Nat.le_refl _) fun parts _ => ?_
  · have hfits := hargs' p.1 (List.fst_mem_of_mem_zipIdx hp)
    refine (argType sig packed hfits.id p.2).free fun type _ => ?_
    exact (implicitCopy hfits type).seq (Nat.le_refl _) fun text _ => .pure trivial
  · split <;> exact .pure trivial

/-- A call that suspends costs its own price besides its arguments. -/
theorem callOf (he : I e.id) (h : ∀ a ∈ args, a.Fits S I) (sig : Signature) (callee : String)
    (ellipsis : Bool) :
    Builds S I (S.prices.suspend e.id + argsPrice S args)
      (Lower.callOf S.self e sig callee args ellipsis) := by
  refine (arguments h sig ellipsis).seq (Nat.le_add_left _ _) fun texts _ => ?_
  exact (placeCall he sig _).spending (by omega)

/-! ### Functions and methods -/

section

variable {func base : Expr}

/-- A plain call pays for its callee too. -/
theorem plainCall (he : I e.id) (hfunc : func.Fits S I) (h : ∀ a ∈ args, a.Fits S I)
    (ellipsis : Bool) :
    Builds S I (S.prices.suspend e.id + (S.prices.full func + argsPrice S args))
      (Lower.plainCall S.self e func args ellipsis) := by
  have hprice := S.prices.price_le_full func
  refine (signatureOf hfunc.id).free fun sig _ => ?_
  refine (lower hfunc none).seq (by omega) fun callee _ => ?_
  exact (callOf he h sig _ ellipsis).spending (by omega)

/-- A method call pays for the base of its receiver. -/
theorem methodCall (he : I e.id) (hfunc : I func.id) (hbase : base.Fits S I)
    (h : ∀ a ∈ args, a.Fits S I) (selection : Selection) (span : Span) (ellipsis : Bool) :
    Builds S I (S.prices.suspend e.id + (S.prices.full base + argsPrice S args))
      (Lower.methodCall S.self e func base selection span args ellipsis) := by
  refine (signatureOf hfunc).free fun sig _ => ?_
  refine (receiver hbase selection span).seq (by omega) fun recv _ => ?_
  refine (config _).free fun hostObject _ => ite (fun _ => ?_) fun _ => ?_
  · exact (hostMethod h recv _ ellipsis).spending (by omega)
  · exact (callOf he h sig _ ellipsis).spending (by omega)

/-- The callee is the host field. -/
theorem hostFieldCall (hfunc : func.Fits S I) (h : ∀ a ∈ args, a.Fits S I) :
    Builds S I (S.prices.full func + argsPrice S args)
      (Lower.hostFieldCall S.self func args) := by
  have hprice := S.prices.price_le_full func
  refine (signatureOf hfunc.id).free fun sig _ => ?_
  refine (lower hfunc none).seq (by omega) fun callee _ => ?_
  have hargs : Builds S I (argsPrice S args) (Lower.externalizedArgs S.self args) :=
    externalizedArgs h
  refine hargs.seq (by omega) fun texts _ => ?_
  dsimp only
  split
  · exact .pure trivial
  · exact (config _).spending (Nat.zero_le _)
  · exact (reportError _ _).free fun _ _ => .pure trivial

theorem firstArgument (h : ∀ a ∈ args, a.Fits S I) :
    Builds S I (argsPrice S args) (Lower.firstArgument S.self e args) := by
  unfold Lower.firstArgument
  split
  · exact (lower (h _ (by simp)) none).spending (price_le_args (i := 0) rfl)
  · exact unsupported

/-- What a name stands for decides what is paid for it. -/
theorem identifierCall (he : I e.id) (hfunc : func.Fits S I) (h : ∀ a ∈ args, a.Fits S I)
    (name : String) (ellipsis : Bool) :
    Builds S I (S.prices.suspend e.id + (S.prices.full func + argsPrice S args))
      (Lower.identifierCall S.self e func name args ellipsis) := by
  refine (objectOf hfunc.unparen.id).free fun obj _ => ite (fun _ => ?_) fun _ => ?_
  · exact (builtin he h name ellipsis).spending (by omega)
  refine (config _).free fun hostPackage _ => ite (fun _ => ?_) fun _ => ?_
  · exact (firstArgument h).spending (by omega)
  · exact plainCall he hfunc h ellipsis

/-- So does a selector, as function, method or field. -/
theorem selectorCall {n : Node} {sel : Expr} (he : I e.id) (hfunc : func.Fits S I)
    (hsel : func.unparen = .selector n base sel) (h : ∀ a ∈ args, a.Fits S I) (ellipsis : Bool) :
    Builds S I (S.prices.suspend e.id + (S.prices.full func + argsPrice S args))
      (Lower.selectorCall S.self e func base sel args ellipsis) := by
  -- The selector may stand in brackets, but the whole function is there to pay with.
  have hunparen := hfunc.unparen
  have hfull := S.prices.full_unparen_le func
  have hparts := S.prices.full_eq func.unparen
  rw [hsel] at hunparen hparts
  simp only [Expr.parts, sumOf_cons, sumOf_nil] at hparts
  have hbaseFits : base.Fits S I := hunparen.part rfl (by simp [Expr.parts])
  have hselFits : sel.Fits S I := hunparen.part rfl (by simp [Expr.parts])
  have hplain := plainCall he hfunc h ellipsis
  unfold Lower.selectorCall
  refine (selectionOf hfunc.unparen.id).free fun selection _ => ?_
  split
  · refine (objectOf hselFits.id).free fun obj _ => (config _).free fun hostPackage _ => ?_
    refine ite (fun _ => ?_) fun _ => hplain
    split
    · exact .pure trivial
    · exact (firstArgument h).spending (by omega)
    · exact hplain
  · split
    · exact (methodCall he hfunc.id hbaseFits h _ _ ellipsis).spending (by rw [hsel] at hfull; omega)
    · refine (pathFrom _ _ _).free fun path _ => ite (fun _ => ?_) fun _ => hplain
      exact (hostFieldCall hfunc.unparen h).spending (by omega)
    · exact hplain

/-- A call with a type for its callee is a conversion, and does not suspend. -/
theorem callExpr (he : I e.id) (hfunc : func.Fits S I) (h : ∀ a ∈ args, a.Fits S I)
    (ellipsis : Bool) :
    Builds S I (S.prices.suspend e.id + (S.prices.full func + argsPrice S args))
      (Lower.call S.self e func args ellipsis) := by
  refine (isTypeExpr hfunc.known).free fun denotesType _ => ite (fun _ => ?_) fun _ => ?_
  · split
    · next value rest =>
      refine (typeOf he).free fun target _ => (conversion (h value (by simp)) target).spending ?_
      have hvalue : S.prices.price value ≤ argsPrice S (value :: rest) := price_le_args (i := 0) rfl
      omega
    · exact unsupported
  · split
    · exact identifierCall he hfunc h _ ellipsis
    · exact selectorCall he hfunc ‹_› h ellipsis
    · exact plainCall he hfunc h ellipsis

end

end GoLua.Built
