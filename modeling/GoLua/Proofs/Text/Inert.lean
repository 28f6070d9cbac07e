import GoLua.Proofs.Text.Forms

/-!
# Inert text

A pattern is read for percent signs, wherever its text comes from. Text without one stands in a
pattern for itself; such text is *inert*. Putting texts together, quoting them and building
aggregates of them brings in no percent sign.
-/

namespace GoLua

open Lua Text

/-- A text without percent signs. -/
def Inert (text : String) : Prop :=
  '%' ∉ text.toList

instance (text : String) : Decidable (Inert text) :=
  inferInstanceAs (Decidable ('%' ∉ text.toList))

theorem inert_append {s t : String} (hs : Inert s) (ht : Inert t) : Inert (s ++ t) := by
  rw [Inert, String.toList_append, List.mem_append]
  exact fun h => h.elim hs ht

theorem inert_bracketed {o text c : String} (ho : Inert o) (h : Inert text) (hc : Inert c) :
    Inert (o ++ text ++ c) :=
  inert_append (inert_append ho h) hc

theorem inert_parenthesized {text : String} (h : Inert text) : Inert (parenthesized text) :=
  inert_bracketed (by decide) h (by decide)

theorem inert_braced {text : String} (h : Inert text) : Inert (braced text) :=
  inert_bracketed (by decide) h (by decide)

theorem inert_commaSeparated {texts : List String} (h : ∀ text ∈ texts, Inert text) :
    Inert (commaSeparated texts) :=
  intercalate_induction (by decide) (fun _ _ hs ht => inert_append (inert_append hs (by decide)) ht) h

theorem inert_callText {callee : String} {args : List String} (hcallee : Inert callee)
    (hargs : ∀ arg ∈ args, Inert arg) : Inert (callText callee args) :=
  inert_append hcallee (inert_parenthesized (inert_commaSeparated hargs))

theorem inert_quote {s : String} (h : Inert s) : Inert (quote s) :=
  not_mem_quote h

theorem inert_nat (n : Nat) : Inert (toString n) := fun h =>
  absurd (isDigit_of_mem_toString h) (by decide)

/-! ### Access chains -/

theorem inert_accessStep {name : String} (h : Inert name) : Inert (accessStep name) := by
  unfold accessStep
  split
  · exact inert_append (by decide) h
  · exact inert_bracketed (by decide) (inert_quote h) (by decide)

theorem inert_accessChain {names : List String} (h : ∀ name ∈ names, Inert name) :
    Inert (accessChain names) := by
  induction names with
  | nil => decide
  | cons name names ih =>
    rw [accessChain, List.map_cons, String.join_cons]
    exact inert_append (inert_accessStep (h name (by simp)))
      (ih fun name hname => h name (by simp [hname]))

theorem inert_accessorKey (key : String) : Inert (accessorKey key) := fun h =>
  absurd (isNameChar_of_mem_accessorKey h) (by decide)

/-! ### Aggregates -/

theorem inert_zeroBased {elements : List String} (h : ∀ e ∈ elements, Inert e) :
    Inert (zeroBased elements) := by
  unfold zeroBased
  split
  · decide
  · exact inert_append (by decide) (inert_commaSeparated h)

theorem inert_tag (t : GoType) : Inert t.tag := by
  have hkind (k : Kind) : Inert k.tag := by cases k <;> decide
  unfold GoType.tag
  split
  · exact hkind _
  all_goals decide

theorem inert_arrayText {elements : List String} (h : ∀ e ∈ elements, Inert e) (elem : GoType)
    (len : Nat) : Inert (arrayText elements elem len) := by
  refine inert_callText (by decide) ?_
  simp only [List.forall_mem_cons]
  exact ⟨inert_braced (inert_zeroBased h), inert_quote (inert_tag elem), inert_nat len, by simp⟩

theorem inert_nilSliceText {elem : GoType} (h : Inert elem.text) : Inert (nilSliceText elem) := by
  refine inert_callText (by decide) ?_
  simp only [List.forall_mem_cons]
  exact ⟨inert_quote h, by decide, by simp⟩

theorem inert_mapText {entries : List String} (h : ∀ e ∈ entries, Inert e) {key elem : GoType}
    (hkey : Inert key.text) (helem : Inert elem.text) : Inert (mapText entries key elem) := by
  refine inert_callText (by decide) ?_
  simp only [List.forall_mem_cons]
  exact ⟨inert_quote hkey, inert_quote helem, inert_braced (inert_commaSeparated h), by simp⟩

theorem inert_nilMapText {key elem : GoType} (hkey : Inert key.text) (helem : Inert elem.text) :
    Inert (nilMapText key elem) := by
  refine inert_callText (by decide) ?_
  simp only [List.forall_mem_cons]
  exact ⟨inert_quote hkey, inert_quote helem, by decide, by simp⟩

theorem inert_structText {values names : List String} (hvalues : ∀ v ∈ values, Inert v)
    (hnames : ∀ name ∈ names, Inert name) {type : GoType} (htype : Inert type.text) :
    Inert (structText type names values) := by
  have hentries : ∀ entry ∈ List.zipWith (fun name value => "[" ++ quote name ++ "]=" ++ value)
      names values, Inert entry := by
    intro entry hentry
    rw [← List.map_uncurry_zip_eq_zipWith, List.mem_map] at hentry
    obtain ⟨⟨name, value⟩, hmem, rfl⟩ := hentry
    have hname : Inert ("[" ++ quote name ++ "]=") :=
      inert_bracketed (by decide) (inert_quote (hnames name (List.of_mem_zip hmem).1)) (by decide)
    exact inert_append hname (hvalues value (List.of_mem_zip hmem).2)
  refine inert_callText (by decide) ?_
  simp only [List.forall_mem_cons]
  exact ⟨inert_quote htype, inert_braced (inert_commaSeparated hentries), by simp⟩

theorem inert_kindZero (k : Kind) : Inert k.zero := by
  cases k <;> decide

end GoLua
