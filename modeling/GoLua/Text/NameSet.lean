/-!
# Sets of names

A finite set of names, held as the list of its members in ascending order of their characters. The
order belongs to the type, so a set has one representation: it is written the same way however it
was built, and two sets are equal exactly when they have the same members.
-/

namespace GoLua

/-- A list of names in strictly ascending order. -/
structure NameSet where
  names : List String := []
  ascending : names.Pairwise (· < ·) := by exact List.Pairwise.nil
  deriving DecidableEq

namespace NameSet

/-- The set without names. -/
def empty : NameSet := {}

/-- Puts a name into its place in an ascending list, unless it is there already. -/
def place (name : String) : List String → List String
  | [] => [name]
  | m :: ms =>
    if name < m then name :: m :: ms
    else if name = m then m :: ms
    else m :: place name ms

theorem mem_place {name x : String} {ms : List String} :
    x ∈ place name ms ↔ x = name ∨ x ∈ ms := by
  induction ms with
  | nil => simp [place]
  | cons m ms ih =>
    unfold place
    split
    · simp
    · split
      · next h => subst h; simp
      · simp only [List.mem_cons, ih]
        exact or_left_comm

theorem ascending_place {name : String} {ms : List String} (h : ms.Pairwise (· < ·)) :
    (place name ms).Pairwise (· < ·) := by
  induction ms with
  | nil => simp [place]
  | cons m ms ih =>
    obtain ⟨hm, hms⟩ := List.pairwise_cons.1 h
    unfold place
    split
    · next hlt =>
      refine List.pairwise_cons.2 ⟨fun x hx => ?_, h⟩
      rcases List.mem_cons.1 hx with rfl | hx
      · exact hlt
      · exact String.lt_trans hlt (hm x hx)
    · next hnlt =>
      split
      · exact h
      · next hne =>
        refine List.pairwise_cons.2 ⟨fun x hx => ?_, ih hms⟩
        rcases mem_place.1 hx with rfl | hx
        · exact Std.lt_of_le_of_ne (String.not_lt.1 hnlt) (Ne.symm hne)
        · exact hm x hx

/-- The set with one more name. -/
def insert (s : NameSet) (name : String) : NameSet :=
  ⟨place name s.names, ascending_place s.ascending⟩

/-- The set of the names in a list. -/
def ofList (names : List String) : NameSet :=
  names.foldl insert .empty

def contains (s : NameSet) (name : String) : Bool :=
  s.names.contains name

theorem contains_insert (s : NameSet) (name x : String) :
    (s.insert name).contains x = (x == name || s.contains x) := by
  rw [Bool.eq_iff_iff]
  simp [contains, insert, mem_place]

end NameSet

end GoLua
