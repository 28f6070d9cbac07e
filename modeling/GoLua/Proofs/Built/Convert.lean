import GoLua.Lower.Index
import GoLua.Proofs.Built.Template

/-!
# Conversions and elements

How conversions, type assertions, indices and slices are put together. A conversion lowers what is
converted once, whatever its target makes of it; the new nodes of a pointer conversion are made of
generated names, and are free.
-/

namespace GoLua.Built

variable {S : Setting} {I : NodeId → Prop} {w : Nat} {e : Expr}

/-! ### Values for the host -/

/-- What goes out to the host is paid for once. -/
theorem externalized (h : e.Fits S I) :
    Builds S I (S.prices.price e) (Lower.externalized S.self e) := by
  refine (typeOf h.id).free fun type _ => (config _).free fun hostObject _ => ?_
  split
  · exact lower h none
  · exact renderOne h false _

theorem externalizedArgs {args : List Expr} (h : ∀ e ∈ args, e.Fits S I) :
    Builds S I (sumOf S.prices.price args) (Lower.externalizedArgs S.self args) :=
  (mapM fun e he => (externalized (h e he)).map Fragment.text fun _ _ => trivial).map _
    fun _ _ => trivial

theorem wrappedHostObject (h : e.Fits S I) :
    Builds S I (S.prices.price e) (Lower.wrappedHostObject S.self e) :=
  renderOne h false (Lua.Support.hostObjectPtr ++ "(%e)")

/-! ### Implicit conversions -/

/-- An implicit conversion costs its operand at most. -/
theorem implicit (h : e.Fits S I) (desired : GoType) :
    Builds S I (S.prices.price e) (Lower.implicit S.self e desired) := by
  refine (typeOf h.id).free fun type _ => ?_
  split
  · exact lower h none
  split
  · exact (zeroFor desired).free fun zero _ => .pure trivial
  split
  · refine (config _).free fun hostObject _ => ?_
    split
    · exact wrappedHostObject h
    refine (config _).free fun boxed _ => ?_
    split
    · exact renderOne h false _
    split
    · exact renderOne h false _
    · exact lower h (some desired)
  · exact lower h (some desired)

/-- A copy repeats the text of its operand without paying for it again. -/
theorem implicitCopy (h : e.Fits S I) (desired : GoType) :
    Builds S I (S.prices.price e) (Lower.implicitCopy S.self e desired) := by
  unfold Lower.implicitCopy
  split
  · exact renderOne h false _
  · exact implicit h desired

/-! ### Explicit conversions -/

theorem noConversion {source target : GoType} :
    Builds S I w (Lower.noConversion e source target) :=
  (Built.fail fun _ _ h => by cases h).spending (Nat.zero_le w)

/-- A float is rounded in a pattern that repeats it, by a name. -/
theorem toIntegerKind (h : e.Fits S I) (source target : GoType) (kind : Kind) :
    Builds S I (S.prices.price e) (Lower.toIntegerKind S.self e source target kind) := by
  unfold Lower.toIntegerKind
  split
  · exact noConversion
  split
  · exact (lower h none).seq (Nat.le_refl _) fun value _ => .pure trivial
  split
  · exact (renderOne h true _).seq (Nat.le_refl _) fun whole _ => .pure trivial
  split
  · exact lower h none
  · exact noConversion

theorem toFloatKind (h : e.Fits S I) (source target : GoType) :
    Builds S I (S.prices.price e) (Lower.toFloatKind S.self e source target) := by
  unfold Lower.toFloatKind
  split
  · exact noConversion
  split
  · exact renderOne h true _
  split
  · exact lower h none
  · exact noConversion

theorem toStringKind (h : e.Fits S I) (source target : GoType) :
    Builds S I (S.prices.price e) (Lower.toStringKind S.self e source target) := by
  unfold Lower.toStringKind
  split
  · split
    · exact renderOne h false _
    split
    · exact lower h none
    · exact noConversion
  · exact renderOne h false _
  · exact noConversion

/-- Every row of the table pays for the operand at most once. -/
theorem toKind (h : e.Fits S I) (source target : GoType) (kind : Kind) :
    Builds S I (S.prices.price e) (Lower.toKind S.self e source target kind) := by
  unfold Lower.toKind
  split
  · exact toIntegerKind h source target kind
  split
  · exact toFloatKind h source target
  split
  · split
    · exact lower h none
    · exact noConversion
  split
  · exact toStringKind h source target
  split
  · exact lower h none
  split
  · exact lower h none
  · exact noConversion

theorem toSlice (h : e.Fits S I) (source target : GoType) :
    Builds S I (S.prices.price e) (Lower.toSlice S.self e source target) := by
  unfold Lower.toSlice
  split
  · exact renderOne h false _
  split
  · exact lower h none
  · exact noConversion

/-- A name that lowering made may be lowered, and costs nothing. -/
theorem fits_ident {node : Node} (h : I node.id) (name : String) :
    (Expr.ident node name).Fits S I :=
  .intro h rfl (by simp [Expr.parts])

/-- The pointer conversion goes down in both types, so the induction is on their sizes together. -/
theorem convertFrom (h : e.Fits S I) (source target : GoType) :
    Builds S I (S.prices.price e) (Lower.convertFrom S.self e source target) := by
  induction hn : sizeOf source + sizeOf target using Nat.strongRecOn
    generalizing e source target I with
  | ind n ih =>
    subst hn
    rw [Lower.convertFrom]
    split
    · exact lower h none
    split
    · exact (zeroFor target).free fun zero _ => .pure trivial
    split
    · exact toKind h source target _
    · exact toSlice h source target
    · next targetElem ht =>
      split
      · exact lower h none
      split
      · exact noConversion
      · next sourceElem hs =>
        have hsource := GoType.sizeOf_lt_of_pointerElem? hs
        have htarget : sizeOf targetElem < sizeOf target :=
          GoType.sizeOf_lt_of_pointerElem? (by simp [GoType.pointerElem?, ht])
        refine (lower h none).seq (Nat.le_refl _) fun inner _ => ?_
        refine (newLocal "_ptr").free fun pointer _ => (newLocal "_v").free fun parameter _ => ?_
        refine synthesizeUse _ _ _ _ fun pointerNode _ => synthesizeNode _ _ fun derefNode hfresh => ?_
        -- All of `*pointer` is new and therefore free.
        have hderef : S.prices.price (.star derefNode (.ident pointerNode pointer)) = 0 := by
          have hfull : S.prices.full (.star derefNode (.ident pointerNode pointer)) =
              S.prices.full (.ident pointerNode pointer) := S.prices.full_around hfresh rfl rfl
          have hle := S.prices.price_le_full (.star derefNode (.ident pointerNode pointer))
          rw [hfull, Prices.full_ident] at hle
          exact Nat.le_zero.mp hle
        have hfits : (Expr.star derefNode (.ident pointerNode pointer)).Fits S
            (withNode (withNode I pointerNode.id) derefNode.id) :=
          .around (withNode_self _ _) rfl rfl (fits_ident (withNode_of _ (withNode_self _ _)) _)
        refine (ih _ (by omega) hfits sourceElem targetElem rfl).seq
          (by rw [hderef]; exact Nat.zero_le _) fun getter _ => ?_
        refine synthesizeUse _ _ _ _ fun valueNode _ => ?_
        refine (ih _ (by omega) (fits_ident (withNode_self _ _) _) targetElem sourceElem rfl).seq
          (by rw [Prices.price_ident]; exact Nat.zero_le _) fun setter _ => .pure trivial
    · split
      · exact lower h none
      · exact implicitCopy h target
    · exact implicitCopy h target

/-- So does a conversion between types. -/
theorem conversion (h : e.Fits S I) (target : GoType) :
    Builds S I (S.prices.price e) (Lower.conversion S.self e target) :=
  (typeOf h.id).free fun source _ => convertFrom h source target

/-! ### Type assertions -/

/-- The asserted type costs nothing. -/
theorem typeAssertion {base : Expr} {asserted : Option Expr} (he : I e.id) (hbase : base.Fits S I)
    (hasserted : ∀ a ∈ asserted, a.Fits S I) :
    Builds S I (S.prices.price base) (Lower.typeAssertion S.self e base asserted) := by
  cases asserted with
  | none => exact lower hbase none
  | some asserted =>
    refine (typeOf (hasserted asserted rfl).id).free fun target _ => ?_
    exact (typeOf he).free fun type _ => renderOne hbase false _

/-! ### Elements -/

theorem mapKey {key : Expr} (h : key.Fits S I) (keyType : GoType) :
    Builds S I (S.prices.price key) (Lower.mapKey S.self key keyType) := by
  refine (typeOf h.id).free fun type _ => (config _).free fun hostObject _ => ?_
  refine ite (fun _ => (reportError _ _).free fun _ _ => ?_) fun _ => ?_
  all_goals exact (implicit h keyType).seq (Nat.le_refl _) fun converted _ => .pure trivial

/-- An element of a map costs the map and the key. -/
theorem mapElement {base index : Expr} (he : I e.id) (hbase : base.Fits S I)
    (hindex : index.Fits S I) (key elem : GoType) :
    Builds S I (S.prices.price base + S.prices.price index)
      (Lower.mapElement S.self e base index key elem) := by
  refine (mapKey hindex key).seq (by omega) fun keyText _ => ?_
  refine (zeroFor elem).free fun zero _ => (typeOf he).free fun type _ => ?_
  refine (renderAs [.expr base, .lowered keyText, .text zero] ?_ false _).spending ?_
  · simp [Operand.Fits, hbase]
  · simp [Setting.price]

/-- An index costs its base and its place. -/
theorem index {base place : Expr} (he : I e.id) (hbase : base.Fits S I) (hplace : place.Fits S I) :
    Builds S I (S.prices.price base + S.prices.price place)
      (Lower.index S.self e base place) := by
  refine (typeOf hbase.id).free fun baseType _ => (isConstant hplace.id).free fun constant _ => ?_
  split
  · exact ite (fun _ => renderTwo hbase hplace false _) fun _ => renderTwo hbase hplace false _
  split
  · exact renderTwo hbase hplace false _
  · exact mapElement he hbase hplace _ _
  · split
    · exact renderTwo hbase hplace false _
    · exact unsupported
  · exact unsupported

/-- A slice costs its base and the bounds it has. -/
theorem slice {base : Expr} {low high max : Option Expr} (hbase : base.Fits S I)
    (hbounds : ∀ e ∈ low.toList ++ high.toList ++ max.toList, e.Fits S I) :
    Builds S I
      (S.prices.price base + sumOf S.prices.price (low.toList ++ high.toList ++ max.toList))
      (Lower.slice S.self e base low high max) := by
  refine (typeOf hbase.id).free fun baseType _ => ?_
  split
  · exact unsupported
  · refine (renderAs _ (fun o ho => ?_) false _).spending (Nat.le_of_eq ?_)
    · obtain ⟨c, hc, rfl⟩ := List.mem_map.mp ho
      rcases List.mem_cons.mp hc with rfl | hc
      · exact hbase
      · exact hbounds c (by simpa [or_assoc] using hc)
    · simp [Setting.price]

end GoLua.Built
