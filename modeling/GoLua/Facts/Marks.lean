import GoLua.Facts.NodeTable

/-!
# Suspension marks

The nodes that may block and give way to other tasks. A marked call is not written where it stands:
it becomes a statement of its own, at which the function can be resumed.
-/

namespace GoLua

/-- A finite set of nodes. -/
structure Marks where
  table : NodeTable Unit := .empty

namespace Marks

instance : Inhabited Marks := ⟨{}⟩

def mark (m : Marks) (id : NodeId) : Marks :=
  ⟨m.table.insert id ()⟩

def contains (m : Marks) (id : NodeId) : Bool :=
  m.table.contains id

def size (m : Marks) : Nat :=
  m.table.size

def ofList (ids : List NodeId) : Marks :=
  ids.foldl mark {}

/-- The nodes of either set. -/
def union (m n : Marks) : Marks :=
  n.table.entries.foldl (fun m e => m.mark e.1) m

/-- Whether two sets have the same members. -/
def agrees (m n : Marks) : Bool :=
  m.table.agrees (fun _ _ => true) n.table

theorem contains_mark (m : Marks) (id x : NodeId) :
    (m.mark id).contains x = (id == x || m.contains x) := by
  by_cases h : id = x <;> simp [contains, mark, NodeTable.contains, NodeTable.get?_insert, h]

end Marks

end GoLua
