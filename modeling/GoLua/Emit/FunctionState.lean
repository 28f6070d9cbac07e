import GoLua.Emit.Statement
import GoLua.Facts.Facts
import GoLua.Facts.Marks
import GoLua.Source.Diagnostic

/-!
# The state of a function being lowered

What lowering the expressions of one function builds up, and must not leak into the next: the
statements that have to run first, the names minted so far, the resume steps handed out, the
diagnostics, and the facts about nodes that lowering made for itself.

* **Fresh names** carry one counter for all hints, so that no number is handed out twice. Two of them
  can be alike only if a hint ends in a digit, which those of lowering do not.
* **The overlay** holds the facts about synthesized nodes. It is asked before the facts of the
  program, and only about numbers that lowering minted.
* **Accessor boxes** are minted once per variable, so that taking an address twice gives one box.

The program counts names, steps and nodes in 32 bits each and stops, or starts over where overflows
are not checked, when a counter runs over. Here the counters are unbounded: what is proved of them
speaks of runs in which they stay below, which takes more than two billion new nodes of one function,
or twice as many names or steps, to leave.

Three records are kept besides. The bodies that were asked for stand for what a source of bodies
remembers between two requests. The nodes that were lowered and the statements as they were made are
there for the sake of what is proved, and nothing that is lowered depends on them.
-/

namespace GoLua

/-- Facts about nodes that lowering made for itself. -/
structure Overlay where
  types : NodeTable GoType := .empty
  constants : NodeTable Constant := .empty
  uses : NodeTable Object := .empty
  selections : NodeTable Selection := .empty
  suspending : Marks := {}

/-- A call of a method of host objects that assigns a property, with the text of the object. -/
inductive HostWrite where
  | set (object : String)
  | setIndex (object : String)
  | delete (object : String)

/-- The object whose property is assigned. -/
def HostWrite.object : HostWrite → String
  | .set object | .setIndex object | .delete object => object

/-- A statement as it was made. -/
structure Made where
  /-- The connectives whose right operands were being lowered, the innermost first. -/
  inside : List NodeId
  statement : Statement
  /-- The connective that a guard was made for. -/
  connective : Option NodeId := none
  /-- The method of a host object that an assignment was made for. -/
  write : Option HostWrite := none

/-- The state of lowering one function. -/
structure FunctionState where
  /-- The number of the next fresh name. -/
  nextName : Nat := 0
  /-- The number of the next resume step. -/
  nextStep : Nat := 0
  /-- The number of the next node that lowering makes. -/
  nextSynthetic : NodeId := firstSyntheticId
  /-- Fresh names that outlive their expression, so that the function has to declare them. -/
  temporaries : List String := []
  /-- What has to run before the statement at hand. -/
  pending : List Statement := []
  reporter : Reporter := {}
  overlay : Overlay := {}
  /-- The accessor boxes of variables, by the key of the variable. -/
  accessorBoxes : List (String × String) := []
  /-- The bodies of function literals that have been asked for, the latest first: the handle of each
  with the signature of the literal. -/
  bodyRequests : List (Nat × Signature) := []
  /-- The nodes that have been lowered by their form, the latest first. Names and constants, which
  may be written again and again, are not among them. -/
  lowered : List NodeId := []
  /-- The statements that have been made, the latest first, wherever they stand by now. -/
  made : List Made := []

namespace FunctionState

instance : Inhabited FunctionState := ⟨{}⟩

/-- A fresh name for code that declares it itself. -/
def newLocal (s : FunctionState) (hint : String) : String × FunctionState :=
  (hint ++ toString s.nextName, { s with nextName := s.nextName + 1 })

/-- A fresh name that the function declares. -/
def newTemporary (s : FunctionState) (hint : String) : String × FunctionState :=
  let (name, s) := s.newLocal hint
  (name, { s with temporaries := s.temporaries ++ [name] })

/-- The next resume step. -/
def newStep (s : FunctionState) : Nat × FunctionState :=
  (s.nextStep, { s with nextStep := s.nextStep + 1 })

/-- The number of a new synthesized node. -/
def newSyntheticId (s : FunctionState) : NodeId × FunctionState :=
  (s.nextSynthetic, { s with nextSynthetic := s.nextSynthetic + 1 })

/-- Adds a statement after the pending ones. -/
def push (s : FunctionState) (stmt : Statement) : FunctionState :=
  { s with pending := s.pending ++ [stmt] }

/-- Adds a statement that has just been made. -/
def leave (s : FunctionState) (m : Made) : FunctionState :=
  { s.push m.statement with made := m :: s.made }

/-- Puts statements that were taken out after the pending ones. -/
def putBack (s : FunctionState) (stmts : List Statement) : FunctionState :=
  { s with pending := s.pending ++ stmts }

/-- Takes all pending statements out. -/
def drain (s : FunctionState) : List Statement × FunctionState :=
  (s.pending, { s with pending := [] })

/-- Takes out the pending statements after the first `mark` ones. -/
def splitAt (s : FunctionState) (mark : Nat) : List Statement × FunctionState :=
  (s.pending.drop mark, { s with pending := s.pending.take mark })

/-- Reports an error to the author of the program. -/
def reportError (s : FunctionState) (message : String) (span : Span) : FunctionState :=
  { s with reporter := s.reporter.report { severity := .error, message, span } }

/-- Changes the facts about synthesized nodes. -/
def modifyOverlay (s : FunctionState) (f : Overlay → Overlay) : FunctionState :=
  { s with overlay := f s.overlay }

/-- The accessor box of the variable with a key, minted when it is first asked for. -/
def accessorBox (s : FunctionState) (key : String) : String × FunctionState :=
  match s.accessorBoxes.lookup key with
  | some name => (name, s)
  | none =>
    let (name, s) := s.newTemporary (key ++ "_ptr")
    (name, { s with accessorBoxes := s.accessorBoxes ++ [(key, name)] })

/-! ### What is left alone -/

@[simp] theorem pending_push (s : FunctionState) (stmt : Statement) :
    (s.push stmt).pending = s.pending ++ [stmt] := rfl

/-- Splitting loses nothing. -/
theorem splitAt_append (s : FunctionState) (mark : Nat) :
    (s.splitAt mark).2.pending ++ (s.splitAt mark).1 = s.pending :=
  List.take_append_drop mark s.pending

/-- Asking for a box twice gives one box and mints nothing the second time. -/
theorem accessorBox_again (s : FunctionState) (key : String) :
    (s.accessorBox key).2.accessorBox key = ((s.accessorBox key).1, (s.accessorBox key).2) := by
  unfold accessorBox
  cases h : s.accessorBoxes.lookup key with
  | some name => simp [h]
  | none => simp [h, newTemporary, newLocal, List.lookup_append]

end FunctionState

end GoLua
