import GoLua.Facts.NodeTable
import GoLua.Go.Constant
import GoLua.Go.Object

/-!
# Static facts

What the analysis of a program found out about its nodes: their types, the values of constant ones,
what identifiers define or use, and how selectors resolve. Lowering reads these facts and infers
none. An identifier that both defines and uses, as in a type switch, counts as defining.
-/

namespace GoLua

/-- The facts about the nodes of one compilation unit. -/
structure Facts where
  types : NodeTable GoType := .empty
  constants : NodeTable Constant := .empty
  definitions : NodeTable Object := .empty
  uses : NodeTable Object := .empty
  selections : NodeTable Selection := .empty

instance : Inhabited Facts := ⟨{}⟩

/-- What an identifier is bound to. -/
inductive Binding where
  | definition (obj : Object)
  | use (obj : Object)
  | unresolved

/-- The bound entity. -/
def Binding.object? : Binding → Option Object
  | .definition obj | .use obj => some obj
  | .unresolved => none

namespace Facts

/-- What an identifier is bound to; a definition comes before a use. -/
def bindingOf (f : Facts) (id : NodeId) : Binding :=
  match f.definitions.get? id, f.uses.get? id with
  | some obj, _ => .definition obj
  | none, some obj => .use obj
  | none, none => .unresolved

/-- Whether two collections hold the same facts. -/
def agrees (f g : Facts) : Bool :=
  f.types.agrees (· == ·) g.types && f.constants.agrees Constant.sameValue g.constants &&
    f.definitions.agrees (· == ·) g.definitions && f.uses.agrees (· == ·) g.uses &&
    f.selections.agrees (· == ·) g.selections

end Facts

end GoLua
