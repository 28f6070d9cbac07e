import GoLua.Proofs.Brackets.Template

/-!
# Names, conversions and places of twins

The rules for identifiers, for values across the host bridge, for conversions and for indexing mirror
themselves on twins. A conversion of a pointer makes nodes of its own; they have the same numbers in both
runs, and are twins because they are written alike (`twin_ident`, `twin_star`).
-/

namespace GoLua

open Lower Template

variable {scene : Scene} {k l n m : Nat} {c c' b b' e e' : Expr}

/-! ### Identifiers -/

theorem mirrors_zeroFor (e e' : Expr) (type : GoType) :
    Mirrors scene (zeroFor e type) (zeroFor e' type) := by
  refine mirrors_ofExcept ?_
  unfold GoType.zeroAt
  cases type.zero <;> rfl

/-- The value of `nil` depends on its type. -/
theorem mirrors_nilValue (e e' : Expr) (type : GoType) :
    Mirrors scene (nilValue e type) (nilValue e' type) := by
  refine (mirrors_config _).bind fun hostObject => mirrors_ite (fun _ => mirrors_pure rfl) fun _ => ?_
  cases type.underlying with
  | basic kind =>
    cases kind with
    | unsafePointer | untypedNil => exact mirrors_pure rfl
    | _ => exact mirrors_unsupported _ _ _ _
  | slice | pointer | map | interface | func | chan =>
    exact (mirrors_zeroFor e e' type).bind fun _ => mirrors_pure rfl
  | _ => exact mirrors_unsupported _ _ _ _

/-- A name is looked up at its own node, which may not be another one. -/
theorem mirrors_identifier (h : e'.id = e.id) (name : String) :
    Mirrors scene (identifier e name) (identifier e' name) := by
  refine mirrors_ite (fun _ => mirrors_unsupported _ _ _ _) fun _ => ?_
  refine (mirrors_objectOf h).bind fun obj => (mirrors_config _).bind fun entity => ?_
  cases entity with
  | some text => exact mirrors_pure rfl
  | none =>
    cases obj.kind with
    | var | const | func => exact (mirrors_config _).bind fun _ => mirrors_pure rfl
    | nil => exact (mirrors_typeOf (.of_eq h)).bind fun type => mirrors_nilValue e e' type
    | typeName | builtin | pkgName => exact mirrors_unsupported _ _ _ _

/-- An identifier of the same number that is written elsewhere. -/
theorem twin_ident {ν ν' : Node} (h : ν'.id = ν.id)
    (hspan : Relation.ReflTransGen scene.moved ν.span ν'.span) (name : String) :
    Twin scene 1 1 (.ident ν name) (.ident ν' name) := by
  refine .of_form h hspan h rfl rfl fun k l _ _ desired => ?_
  have hid : (Expr.ident ν' name).id = (Expr.ident ν name).id := h
  exact mirrors_identifier hid name

/-! ### Values across the host bridge -/

theorem mirrors_wrappedHostObject (h : Twin scene k l c c') :
    Mirrors scene (wrappedHostObject (within k) c) (wrappedHostObject (within l) c') :=
  mirrors_render _ h.alone

theorem mirrors_externalized (h : Twin scene k l c c') :
    Mirrors scene (externalized (within k) c) (externalized (within l) c') := by
  refine (mirrors_typeOf h.alike).bind fun type => (mirrors_config _).bind fun hostObject => ?_
  exact mirrors_ite (fun _ => h.here none) fun _ => mirrors_render _ h.alone

theorem mirrors_externalizedArgs {args args' : List Expr}
    (h : List.Forall₂ (Twin scene k l) args args') :
    Mirrors scene (externalizedArgs (within k) args) (externalizedArgs (within l) args') := by
  have htexts := mirrors_mapM_eq (f := fun e => Fragment.text <$> externalized (within k) e)
    (g := fun e => Fragment.text <$> externalized (within l) e) h
    fun _ _ htwin => (mirrors_externalized htwin).map Fragment.text
  exact htexts.bind fun _ => mirrors_pure rfl

/-! ### Implicit conversions -/

/-- An implicit conversion asks for the type of its operand. -/
theorem mirrors_implicit (h : Twin scene k l c c') (desired : GoType) :
    Mirrors scene (implicit (within k) c desired) (implicit (within l) c' desired) := by
  refine (mirrors_typeOf h.alike).bind fun type => ?_
  refine mirrors_ite (fun _ => h.here none) fun _ => ?_
  refine mirrors_ite (fun _ => (mirrors_zeroFor c c' desired).bind fun _ => mirrors_pure rfl)
    fun _ => ?_
  refine mirrors_ite (fun _ => ?_) fun _ => h.here (some desired)
  refine (mirrors_config _).bind fun hostObject => ?_
  refine mirrors_ite (fun _ => mirrors_wrappedHostObject h) fun _ => ?_
  refine (mirrors_config _).bind fun boxed => ?_
  refine mirrors_ite (fun _ => mirrors_render _ h.alone) fun _ => ?_
  exact mirrors_ite (fun _ => mirrors_render _ h.alone) fun _ => h.here (some desired)

/-- So does an implicit copy. -/
theorem mirrors_implicitCopy (h : Twin scene k l c c') (desired : GoType) :
    Mirrors scene (implicitCopy (within k) c desired) (implicitCopy (within l) c' desired) := by
  unfold implicitCopy
  -- A literal is fresh whether it stands in brackets or not.
  rw [h.isLiteral]
  exact mirrors_ite (fun _ => mirrors_render _ h.alone) fun _ => mirrors_implicit h desired

/-! ### Explicit conversions -/

theorem mirrors_noConversion (e e' : Expr) (source target : GoType) :
    Mirrors scene (noConversion e source target) (noConversion e' source target) :=
  mirrors_fail _ _

/-- The conversions of the table ask for types, which are equal for twins. -/
theorem mirrors_toIntegerKind (h : Twin scene k l c c') (source target : GoType) (kind : Kind) :
    Mirrors scene (toIntegerKind (within k) c source target kind)
      (toIntegerKind (within l) c' source target kind) := by
  unfold toIntegerKind
  cases source.basicKind? with
  | none => exact mirrors_noConversion _ _ _ _
  | some inner =>
    refine mirrors_ite (fun _ => (h.here none).bind fun _ => mirrors_pure rfl) fun _ => ?_
    refine mirrors_ite (fun _ => (mirrors_renderParen _ h.alone).bind fun _ => mirrors_pure rfl)
      fun _ => ?_
    exact mirrors_ite (fun _ => h.here none) fun _ => mirrors_noConversion _ _ _ _

theorem mirrors_toFloatKind (h : Twin scene k l c c') (source target : GoType) :
    Mirrors scene (toFloatKind (within k) c source target)
      (toFloatKind (within l) c' source target) := by
  unfold toFloatKind
  cases source.basicKind? with
  | none => exact mirrors_noConversion _ _ _ _
  | some inner =>
    refine mirrors_ite (fun _ => mirrors_renderParen _ h.alone) fun _ => ?_
    exact mirrors_ite (fun _ => h.here none) fun _ => mirrors_noConversion _ _ _ _

theorem mirrors_toStringKind (h : Twin scene k l c c') (source target : GoType) :
    Mirrors scene (toStringKind (within k) c source target)
      (toStringKind (within l) c' source target) := by
  unfold toStringKind
  cases source.underlying with
  | basic inner =>
    refine mirrors_ite (fun _ => mirrors_render _ h.alone) fun _ => ?_
    exact mirrors_ite (fun _ => h.here none) fun _ => mirrors_noConversion _ _ _ _
  | slice => exact mirrors_render _ h.alone
  | _ => exact mirrors_noConversion _ _ _ _

theorem mirrors_toKind (h : Twin scene k l c c') (source target : GoType) (kind : Kind) :
    Mirrors scene (toKind (within k) c source target kind)
      (toKind (within l) c' source target kind) := by
  refine mirrors_ite (fun _ => mirrors_toIntegerKind h source target kind) fun _ => ?_
  refine mirrors_ite (fun _ => mirrors_toFloatKind h source target) fun _ => ?_
  refine mirrors_ite (fun _ => ?_) fun _ => ?_
  · exact mirrors_ite (fun _ => h.here none) fun _ => mirrors_noConversion _ _ _ _
  refine mirrors_ite (fun _ => mirrors_toStringKind h source target) fun _ => ?_
  refine mirrors_ite (fun _ => h.here none) fun _ => ?_
  exact mirrors_ite (fun _ => h.here none) fun _ => mirrors_noConversion _ _ _ _

theorem mirrors_toSlice (h : Twin scene k l c c') (source target : GoType) :
    Mirrors scene (toSlice (within k) c source target) (toSlice (within l) c' source target) := by
  refine mirrors_ite (fun _ => mirrors_render _ h.alone) fun _ => ?_
  cases source.underlying with
  | slice => exact h.here none
  | _ => exact mirrors_noConversion _ _ _ _

/-- What a pointer is tells how it is read. -/
theorem mirrors_dereference (h : Twin scene k l c c') (hid : e'.id = e.id) :
    Mirrors scene (dereference (within k) e c) (dereference (within l) e' c') := by
  refine (mirrors_typeOf h.alike).bind fun pointer => (mirrors_config _).bind fun hostObject => ?_
  refine mirrors_ite (fun _ => mirrors_wrappedHostObject h) fun _ => ?_
  refine (mirrors_typeOf (.of_eq hid)).bind fun type => ?_
  exact mirrors_ite (fun _ => h.here none) fun _ => mirrors_render _ h.alone

/-- Twins behind pointers of the same number. -/
theorem twin_star {ν ν' : Node} (h : Twin scene n m c c') (hid : ν'.id = ν.id)
    (hspan : Relation.ReflTransGen scene.moved ν.span ν'.span) :
    Twin scene (n + 1) (m + 1) (.star ν c) (.star ν' c') := by
  refine .of_form hid hspan hid rfl rfl fun k l hk hl desired => ?_
  exact mirrors_dereference (h.mono hk hl) hid

/-- Generated variables are twins. -/
theorem mirrors_synthesizeVar (name : String) (type : GoType) {span span' : Span}
    (hspan : Relation.ReflTransGen scene.moved span span') :
    MirrorsBy scene (Twin scene 1 1) (synthesizeVar name type span)
      (synthesizeVar name type span') := by
  refine (mirrors_synthesizeUse name (.var name type) type span span').imp ?_
  rintro _ _ ⟨id, rfl, rfl⟩
  refine twin_ident ?_ ?_ name
  · rfl
  · exact hspan

/-- The conversion descends in both types, and what it lowers each time are new nodes. -/
theorem mirrors_convertFrom (h : Twin scene k l c c') (hk : 2 ≤ k) (hl : 2 ≤ l)
    (source target : GoType) :
    Mirrors scene (convertFrom (within k) c source target)
      (convertFrom (within l) c' source target) := by
  induction hsize : sizeOf source + sizeOf target using Nat.strongRecOn
    generalizing c c' source target with
  | ind size ih =>
    subst hsize
    rw [convertFrom, convertFrom]
    refine mirrors_ite (fun _ => h.here none) fun _ => ?_
    refine mirrors_ite (fun _ => (mirrors_zeroFor c c' target).bind fun _ => mirrors_pure rfl)
      fun _ => ?_
    split
    · exact mirrors_toKind h source target _
    · exact mirrors_toSlice h source target
    · next targetElem ht =>
      refine mirrors_ite (fun _ => h.here none) fun _ => ?_
      split
      · exact mirrors_noConversion _ _ _ _
      · next sourceElem hs =>
        have hsource := GoType.sizeOf_lt_of_pointerElem? hs
        have htarget : sizeOf targetElem < sizeOf target :=
          GoType.sizeOf_lt_of_pointerElem? (by simp [GoType.pointerElem?, ht])
        -- The getter converts what the pointer points to, the setter a parameter of its own.
        refine (h.here none).bind fun inner => ?_
        refine (mirrors_newLocal "_ptr").bind fun pointer => ?_
        refine (mirrors_newLocal "_v").bind fun parameter => ?_
        refine (mirrors_synthesizeVar pointer source h.span).bind fun x x' hpointer => ?_
        refine (mirrors_synthesizeNode sourceElem c.span c'.span).bind fun ν ν' hnode => ?_
        obtain ⟨hid, hspan, hspan'⟩ := hnode
        have hderef : Twin scene 2 2 (.star ν x) (.star ν' x') :=
          twin_star hpointer hid (hspan ▸ hspan' ▸ h.span)
        refine (ih _ (by omega) (hderef.mono hk hl) sourceElem targetElem rfl).bind fun getter => ?_
        refine (mirrors_synthesizeVar parameter targetElem h.span).bind fun y y' hvalue => ?_
        have hvalue : Twin scene k l y y' := hvalue.mono (by omega) (by omega)
        exact (ih _ (by omega) hvalue targetElem sourceElem rfl).bind fun setter => mirrors_pure rfl
    · exact mirrors_ite (fun _ => h.here none) fun _ => mirrors_implicitCopy h target
    · exact mirrors_implicitCopy h target

theorem mirrors_conversion (h : Twin scene k l c c') (hk : 2 ≤ k) (hl : 2 ≤ l) (target : GoType) :
    Mirrors scene (conversion (within k) c target) (conversion (within l) c' target) :=
  (mirrors_typeOf h.alike).bind fun source => mirrors_convertFrom h hk hl source target

/-- What is asserted to be the type may be written in brackets too; only its type counts. -/
theorem mirrors_typeAssertion (hid : e'.id = e.id) (hb : Twin scene k l b b')
    {asserted asserted' : Option Expr}
    (h : Option.Rel (fun t t' => Alike scene t.id t'.id) asserted asserted') :
    Mirrors scene (typeAssertion (within k) e b asserted)
      (typeAssertion (within l) e' b' asserted') := by
  cases h with
  | none => exact hb.here none
  | some h =>
    refine (mirrors_typeOf h).bind fun target => ?_
    exact (mirrors_typeOf (.of_eq hid)).bind fun type => mirrors_render _ hb.alone

/-! ### Indexing and slicing -/

/-- The message about a key that no map can have points to the key, brackets included. -/
theorem mirrors_mapKey (h : Twin scene k l c c') (keyType : GoType) :
    Mirrors scene (mapKey (within k) c keyType) (mapKey (within l) c' keyType) := by
  refine (mirrors_typeOf h.alike).bind fun type => (mirrors_config _).bind fun hostObject => ?_
  refine mirrors_ite (fun _ => (mirrors_reportError _ h.span).bind fun _ => ?_) fun _ => ?_
  all_goals exact (mirrors_implicit h keyType).bind fun _ => mirrors_pure rfl

theorem mirrors_mapElement (hid : e'.id = e.id) (hb : Twin scene k l b b') (h : Twin scene k l c c')
    (key elem : GoType) :
    Mirrors scene (mapElement (within k) e b c key elem) (mapElement (within l) e' b' c' key elem) := by
  refine (mirrors_mapKey h key).bind fun keyText => (mirrors_zeroFor e e' elem).bind fun zero => ?_
  refine (mirrors_typeOf (.of_eq hid)).bind fun type => ?_
  exact mirrors_render _ (.cons (.expr hb) (.cons (.lowered keyText) (.cons (.text zero) .nil)))

/-- An index depends on the type of its base. -/
theorem mirrors_index (hid : e'.id = e.id) (hb : Twin scene k l b b') (h : Twin scene k l c c') :
    Mirrors scene (index (within k) e b c) (index (within l) e' b' c') := by
  refine (mirrors_typeOf hb.alike).bind fun baseType => ?_
  refine (mirrors_isConstant h.alike).bind fun constant => ?_
  split
  · exact mirrors_ite (fun _ => mirrors_render _ (hb.beside h)) fun _ =>
      mirrors_render _ (hb.beside h)
  · split
    · exact mirrors_render _ (hb.beside h)
    · exact mirrors_mapElement hid hb h _ _
    · exact mirrors_ite (fun _ => mirrors_render _ (hb.beside h)) fun _ =>
        mirrors_unsupported _ _ _ _
    · exact mirrors_unsupported _ _ _ _

/-- Expressions that may be missing, in a list. -/
theorem forall₂_toList {x x' : Option Expr} (h : Option.Rel (Twin scene k l) x x') :
    List.Forall₂ (Twin scene k l) x.toList x'.toList := by
  cases h with
  | none => exact .nil
  | some h => exact .cons h .nil

/-- A bound is there on both sides or on neither. -/
theorem mirrors_slice (hb : Twin scene k l b b')
    {low low' high high' max max' : Option Expr} (hlow : Option.Rel (Twin scene k l) low low')
    (hhigh : Option.Rel (Twin scene k l) high high') (hmax : Option.Rel (Twin scene k l) max max') :
    Mirrors scene (slice (within k) e b low high max) (slice (within l) e' b' low' high' max') := by
  refine (mirrors_typeOf hb.alike).bind fun baseType => ?_
  split
  · exact mirrors_unsupported _ _ _ _
  · next slicer _ =>
    have hupper : List.Forall₂ (Twin scene k l) (high.toList ++ max.toList)
        (high'.toList ++ max'.toList) := List.rel_append (forall₂_toList hhigh) (forall₂_toList hmax)
    have hpattern : (high'.toList ++ max'.toList).map (fun _ => ", %f") =
        (high.toList ++ max.toList).map fun _ => ", %f" := forall₂_map_eq hupper fun _ _ _ => rfl
    dsimp only
    rw [hpattern, isSome_eq_of_rel hlow]
    refine mirrors_render _ ?_
    rw [List.forall₂_map_left_iff, List.forall₂_map_right_iff]
    exact (List.rel_append (List.Forall₂.cons hb (forall₂_toList hlow)) hupper).imp fun _ _ => .expr

end GoLua
