import GoLua.Go.Expr

/-!
# Tables over nodes

What is known about the nodes of a tree is kept in tables from node numbers to facts. A table holds
at most one fact per node, and a later one replaces an earlier one in its place; the nodes keep the
order in which they were first entered.

The main statements say what each operation does to a look-up (`get?_insert`, `get?_erase`).
-/

namespace GoLua

/-- A table from node numbers to facts, with at most one fact per node. -/
structure NodeTable (α : Type) where
  entries : List (NodeId × α) := []
  distinct : (entries.map Prod.fst).Nodup := by exact List.nodup_nil

namespace NodeTable

variable {α : Type}

instance : Inhabited (NodeTable α) := ⟨{}⟩

/-- The table without facts. -/
def empty : NodeTable α := {}

/-- Enters a fact into a list of entries: in its node's place, or at the end. -/
def put (id : NodeId) (a : α) : List (NodeId × α) → List (NodeId × α)
  | [] => [(id, a)]
  | (i, b) :: es => if i = id then (id, a) :: es else (i, b) :: put id a es

/-- The fact about a node in a list of entries. -/
def find? (id : NodeId) : List (NodeId × α) → Option α
  | [] => none
  | (i, b) :: es => if i = id then some b else find? id es

theorem mem_keys_put {id x : NodeId} {a : α} {es : List (NodeId × α)} :
    x ∈ (put id a es).map Prod.fst ↔ x = id ∨ x ∈ es.map Prod.fst := by
  induction es with
  | nil => simp [put]
  | cons e es ih =>
    obtain ⟨i, b⟩ := e
    unfold put
    split
    · next h => subst h; simp
    · simp only [List.map_cons, List.mem_cons, ih]
      exact or_left_comm

theorem nodup_put {id : NodeId} {a : α} {es : List (NodeId × α)} (h : (es.map Prod.fst).Nodup) :
    ((put id a es).map Prod.fst).Nodup := by
  induction es with
  | nil => simp [put]
  | cons e es ih =>
    obtain ⟨i, b⟩ := e
    rw [List.map_cons, List.nodup_cons] at h
    unfold put
    split
    · next hi =>
      subst hi
      simpa using h
    · next hi =>
      rw [List.map_cons, List.nodup_cons, mem_keys_put]
      exact ⟨fun hx => hx.elim hi h.1, ih h.2⟩

/-- The fact about a node. -/
def get? (t : NodeTable α) (id : NodeId) : Option α :=
  find? id t.entries

/-- The table with a fact about a node, in place of what it held about it. -/
def insert (t : NodeTable α) (id : NodeId) (a : α) : NodeTable α :=
  ⟨put id a t.entries, nodup_put t.distinct⟩

/-- The table without a node. -/
def erase (t : NodeTable α) (id : NodeId) : NodeTable α :=
  ⟨t.entries.filter (·.1 ≠ id), (List.filter_sublist.map Prod.fst).nodup t.distinct⟩

/-- The number of nodes that the table holds a fact about. -/
def size (t : NodeTable α) : Nat :=
  t.entries.length

/-- Whether a fact about a node is held. -/
def contains (t : NodeTable α) (id : NodeId) : Bool :=
  (t.get? id).isSome

/-- Enters a list of facts, the first one first. -/
def ofList (es : List (NodeId × α)) : NodeTable α :=
  es.foldl (fun t e => t.insert e.1 e.2) .empty

/-- Whether two tables hold the same nodes with related facts. -/
def agrees (rel : α → α → Bool) (s t : NodeTable α) : Bool :=
  s.size == t.size && s.entries.all fun e => (t.get? e.1).any (rel e.2)

/-! ### Look-ups -/

@[simp] theorem get?_empty (id : NodeId) : (empty : NodeTable α).get? id = none := rfl

theorem find?_put (id x : NodeId) (a : α) (es : List (NodeId × α)) :
    find? x (put id a es) = if id = x then some a else find? x es := by
  induction es with
  | nil => rfl
  | cons e es ih =>
    obtain ⟨i, b⟩ := e
    unfold put
    split
    · next h => subst h; simp only [find?]; split <;> rfl
    · next h =>
      simp only [find?, ih]
      split
      · next hx => subst hx; rw [if_neg (Ne.symm h)]
      · rfl

/-- After an insertion a look-up finds the new fact at its node and what it found before at every
other node. -/
theorem get?_insert (t : NodeTable α) (id x : NodeId) (a : α) :
    (t.insert id a).get? x = if id = x then some a else t.get? x :=
  find?_put id x a t.entries

@[simp] theorem get?_insert_self (t : NodeTable α) (id : NodeId) (a : α) :
    (t.insert id a).get? id = some a := by
  rw [get?_insert, if_pos rfl]

theorem get?_insert_of_ne (t : NodeTable α) {id x : NodeId} (h : id ≠ x) (a : α) :
    (t.insert id a).get? x = t.get? x := by
  rw [get?_insert, if_neg h]

theorem find?_filter (id x : NodeId) (es : List (NodeId × α)) :
    find? x (es.filter (·.1 ≠ id)) = if id = x then none else find? x es := by
  induction es with
  | nil => simp [find?]
  | cons e es ih =>
    obtain ⟨i, b⟩ := e
    by_cases hi : i = id
    · subst hi
      rw [List.filter_cons_of_neg (by simp), ih]
      by_cases hx : i = x <;> simp [find?, hx]
    · rw [List.filter_cons_of_pos (by simpa using hi)]
      simp only [find?, ih]
      by_cases hx : i = x
      · subst hx
        simp [Ne.symm hi]
      · simp [hx]

/-- After a node is erased a look-up finds nothing at it and what it found before elsewhere. -/
theorem get?_erase (t : NodeTable α) (id x : NodeId) :
    (t.erase id).get? x = if id = x then none else t.get? x :=
  find?_filter id x t.entries

end NodeTable

end GoLua
