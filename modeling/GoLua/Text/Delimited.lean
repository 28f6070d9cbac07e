/-!
# Delimited text

Braces and separated lists, which every printed form of this library is built from.
-/

namespace GoLua.Text

/-- A text between braces. -/
def braced (s : String) : String :=
  "\x7b" ++ s ++ "\x7d"

/-- A text between round brackets. -/
def parenthesized (s : String) : String :=
  "(" ++ s ++ ")"

/-- Texts with a comma and a blank between each two. -/
def commaSeparated (items : List String) : String :=
  ", ".intercalate items

/-- What holds of all items, and of two texts with a separator between them, holds of the list. -/
theorem intercalate_induction {P : String → Prop} {separator : String} {items : List String}
    (nothing : P "") (join : ∀ s t, P s → P t → P (s ++ separator ++ t))
    (h : ∀ item ∈ items, P item) : P (separator.intercalate items) := by
  induction items with
  | nil => exact nothing
  | cons item items ih =>
    have hitem := h item List.mem_cons_self
    have hrest := ih fun i hi => h i (List.mem_cons_of_mem _ hi)
    cases items with
    | nil => rwa [String.intercalate_singleton]
    | cons next items =>
      rw [String.intercalate_cons_cons]
      exact join item _ hitem hrest

end GoLua.Text
