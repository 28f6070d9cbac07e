import GoLua.Lower.Builtin
import GoLua.Proofs.Brackets.Convert

/-!
# Predeclared functions on twins

The arguments of predeclared functions are picked by their places, and lists of twins have twins at the
same places.
-/

namespace GoLua

open Lower Template

variable {scene : Scene} {k l : Nat} {a a' b b' call call' : Expr} {args args' : List Expr}

/-- Arguments at the same place are twins, and missing ones are missing on both sides. -/
theorem mirrors_builtinArg (h : List.Forall₂ (Twin scene k l) args args') (call call' : Expr)
    (name : String) (i : Nat) :
    MirrorsBy scene (Twin scene k l) (builtinArg call name args i)
      (builtinArg call' name args' i) := by
  have harg := forall₂_getElem? h i
  unfold builtinArg
  generalize args[i]? = arg at harg ⊢
  generalize args'[i]? = arg' at harg ⊢
  cases harg with
  | none => exact mirrors_unsupported _ _ _ _
  | some harg => exact mirrors_pure harg

/-- What `new` makes depends on the type of the call. -/
theorem mirrors_newValue (hid : call'.id = call.id) :
    Mirrors scene (newValue call) (newValue call') := by
  refine (mirrors_typeOf (.of_eq hid)).bind fun type => ?_
  cases type.pointerElem? with
  | none => exact mirrors_unsupported _ _ _ _
  | some elem => exact (mirrors_zeroFor call call' elem).bind fun _ => mirrors_pure rfl

/-! ### Making -/

/-- The length, and the capacity if there is one, are twins. -/
theorem mirrors_makeSlice (h : List.Forall₂ (Twin scene k l) args args') (call call' : Expr)
    (elem : GoType) :
    Mirrors scene (makeSlice (within k) call args elem) (makeSlice (within l) call' args' elem) := by
  refine (mirrors_zeroFor call call' elem).bind fun zero => ?_
  refine (mirrors_builtinArg h call call' "make" 1).bind fun len len' hlen => ?_
  have hcap := forall₂_getElem? h 2
  dsimp only
  generalize args[2]? = cap at hcap ⊢
  generalize args'[2]? = cap' at hcap ⊢
  cases hcap with
  | none => exact mirrors_render _ hlen.alone
  | some hcap => exact mirrors_render _ (hlen.beside hcap)

/-- So is the size of a map, and whether it is known. -/
theorem mirrors_makeMap (h : List.Forall₂ (Twin scene k l) args args') (key elem : GoType) :
    Mirrors scene (makeMap (within k) args key elem) (makeMap (within l) args' key elem) := by
  have hsize := forall₂_getElem? h 1
  unfold makeMap
  generalize args[1]? = size at hsize ⊢
  generalize args'[1]? = size' at hsize ⊢
  cases hsize with
  | none => exact mirrors_pure rfl
  | some hsize =>
    refine (mirrors_isConstant hsize.alike).bind fun constant => ?_
    exact mirrors_ite (fun _ => mirrors_pure rfl) fun _ => mirrors_renderParen _ hsize.alone

theorem mirrors_makeChan (h : List.Forall₂ (Twin scene k l) args args') (elem : GoType) :
    Mirrors scene (makeChan (within k) args elem) (makeChan (within l) args' elem) := by
  have hsize := forall₂_getElem? h 1
  unfold makeChan
  generalize args[1]? = size at hsize ⊢
  generalize args'[1]? = size' at hsize ⊢
  cases hsize with
  | none => exact mirrors_pure rfl
  | some hsize => exact mirrors_render _ hsize.alone

/-- The type that is made is that of the first argument. -/
theorem mirrors_make (h : List.Forall₂ (Twin scene k l) args args') (call call' : Expr) :
    Mirrors scene (make (within k) call args) (make (within l) call' args') := by
  refine (mirrors_builtinArg h call call' "make" 0).bind fun made made' hmade => ?_
  refine (mirrors_typeOf hmade.alike).bind fun type => ?_
  split
  · exact mirrors_makeSlice h call call' _
  · exact mirrors_makeMap h _ _
  · exact mirrors_makeChan h _
  · exact mirrors_unsupported _ _ _ _

/-! ### Lengths -/

/-- Which length is asked for depends on the type of the argument. -/
theorem mirrors_len (h : List.Forall₂ (Twin scene k l) args args') (call call' : Expr) :
    Mirrors scene (len (within k) call args) (len (within l) call' args') := by
  refine (mirrors_builtinArg h call call' "len" 0).bind fun operand operand' hoperand => ?_
  refine (mirrors_typeOf hoperand.alike).bind fun type => ?_
  split
  · exact mirrors_render _ hoperand.alone
  · split
    · exact mirrors_ite (fun _ => mirrors_renderParen _ hoperand.alone) fun _ =>
        mirrors_unsupported _ _ _ _
    · exact mirrors_renderParen _ hoperand.alone
    · exact mirrors_renderParen _ hoperand.alone
    · exact mirrors_renderParen _ hoperand.alone
    · exact mirrors_unsupported _ _ _ _

/-- So does a capacity. -/
theorem mirrors_cap (h : List.Forall₂ (Twin scene k l) args args') (call call' : Expr) :
    Mirrors scene (cap (within k) call args) (cap (within l) call' args') := by
  refine (mirrors_builtinArg h call call' "cap" 0).bind fun operand operand' hoperand => ?_
  refine (mirrors_typeOf hoperand.alike).bind fun type => ?_
  split
  · exact mirrors_render _ hoperand.alone
  · split
    · exact mirrors_render _ hoperand.alone
    · exact mirrors_render _ hoperand.alone
    · exact mirrors_unsupported _ _ _ _

/-! ### Slices and maps -/

theorem mirrors_appendAll (ha : Twin scene k l a a') (hb : Twin scene k l b b') :
    Mirrors scene (appendAll (within k) a b) (appendAll (within l) a' b') :=
  (mirrors_typeOf hb.alike).bind fun _ => mirrors_render _ (ha.beside hb)

/-- Appended values are lowered one by one, as many on both sides. -/
theorem mirrors_append (h : List.Forall₂ (Twin scene k l) args args') (hid : call'.id = call.id)
    (ellipsis : Bool) :
    Mirrors scene (append (within k) call args ellipsis)
      (append (within l) call' args' ellipsis) := by
  cases h with
  | nil => exact mirrors_unsupported _ _ _ _
  | cons hslice hrest =>
    cases hrest with
    | nil => exact hslice.here none
    | cons hmore hrest =>
      refine (mirrors_typeOf (.of_eq hid)).bind fun type => ?_
      split
      · next elem _ =>
        refine mirrors_ite (fun _ => mirrors_appendAll hslice hmore) fun _ => ?_
        refine (hslice.here none).bind fun first => ?_
        refine (mirrors_mapM_eq (List.Forall₂.cons hmore hrest) fun _ _ hvalue =>
          mirrors_implicitCopy hvalue elem).bind fun values => ?_
        -- From here on both run the same pattern on the same texts.
        refine mirrors_render _ ?_
        rw [List.forall₂_map_left_iff, List.forall₂_map_right_iff]
        exact List.forall₂_same.mpr fun f _ => .lowered f
      · exact mirrors_unsupported _ _ _ _

theorem mirrors_delete (h : List.Forall₂ (Twin scene k l) args args') (call call' : Expr) :
    Mirrors scene (delete (within k) call args) (delete (within l) call' args') := by
  refine (mirrors_builtinArg h call call' "delete" 0).bind fun map map' hmap => ?_
  refine (mirrors_builtinArg h call call' "delete" 1).bind fun key key' hkey => ?_
  refine (mirrors_typeOf hmap.alike).bind fun type => ?_
  split
  · refine (hmap.here none).bind fun mapText => (mirrors_mapKey hkey _).bind fun keyText => ?_
    exact mirrors_render _ (.cons (.lowered mapText) (.cons (.lowered keyText) .nil))
  · exact mirrors_unsupported _ _ _ _

theorem mirrors_copy (h : List.Forall₂ (Twin scene k l) args args') (call call' : Expr) :
    Mirrors scene (copy (within k) call args) (copy (within l) call' args') := by
  refine (mirrors_builtinArg h call call' "copy" 0).bind fun target target' htarget => ?_
  refine (mirrors_builtinArg h call call' "copy" 1).bind fun source source' hsource => ?_
  exact (mirrors_typeOf hsource.alike).bind fun _ => mirrors_render _ (htarget.beside hsource)

/-! ### The others -/

theorem mirrors_print (h : List.Forall₂ (Twin scene k l) args args') (helper : String) :
    Mirrors scene (print (within k) helper args) (print (within l) helper args') := by
  refine (mirrors_mapM_eq h fun _ _ hvalue => ?_).bind fun _ => mirrors_pure rfl
  exact (hvalue.here none).map Fragment.text

theorem mirrors_complexOf (h : List.Forall₂ (Twin scene k l) args args') (call call' : Expr) :
    Mirrors scene (complexOf (within k) call args) (complexOf (within l) call' args') := by
  refine (mirrors_builtinArg h call call' "complex" 0).bind fun re re' hre => ?_
  refine (mirrors_builtinArg h call call' "complex" 1).bind fun im im' him => ?_
  exact (mirrors_implicit hre _).bind fun _ => (mirrors_implicit him _).bind fun _ => mirrors_pure rfl

/-- A function of one argument, which a pattern is rendered with. -/
theorem mirrors_renderArg (h : List.Forall₂ (Twin scene k l) args args') (call call' : Expr)
    (name pattern : String) :
    Mirrors scene (do render (within k) pattern [← builtinArg call name args 0])
      (do render (within l) pattern [← builtinArg call' name args' 0]) :=
  (mirrors_builtinArg h call call' name 0).bind fun _ _ harg => mirrors_render _ harg.alone

/-- **Predeclared functions.** -/
theorem mirrors_builtin (h : List.Forall₂ (Twin scene k l) args args') (hid : call'.id = call.id)
    (name : String) (ellipsis : Bool) :
    Mirrors scene (builtin (within k) call name args ellipsis)
      (builtin (within l) call' name args' ellipsis) := by
  unfold builtin
  -- One case for each function; an argument is taken at the same place on both sides.
  split
  · exact mirrors_newValue hid
  · exact mirrors_make h call call'
  · exact mirrors_len h call call'
  · exact mirrors_cap h call call'
  · refine (mirrors_builtinArg h call call' _ 0).bind fun value value' hvalue => ?_
    exact (mirrors_implicit hvalue _).bind fun _ => mirrors_pure rfl
  · exact mirrors_append h hid ellipsis
  · exact mirrors_delete h call call'
  · exact mirrors_copy h call call'
  · exact mirrors_print h _
  · exact mirrors_print h _
  · exact mirrors_complexOf h call call'
  · exact mirrors_renderArg h call call' _ _
  · exact mirrors_renderArg h call call' _ _
  · exact mirrors_pure rfl
  · exact mirrors_renderArg h call call' _ _
  · exact mirrors_fail _ _

end GoLua
