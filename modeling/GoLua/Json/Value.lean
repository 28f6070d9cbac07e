import GoLua.Number.Double
import GoLua.Number.Width

/-!
# JSON values

The values of JSON texts, and the ways in which a decoder takes them apart.

Members of an object keep their order, and a key may occur twice: what a repeated key means is for
the decoder to say. A key also keeps whether it is written with escapes, because a number that is
used as a key has to be written in plain digits. An integer keeps the sign that it is written with,
because `-0` read as a double is the negative zero. A number with a fraction or an exponent is read
as a double at once.

A text can follow the grammar and still have no value: a number beyond the largest double, a string
with half of a pair of units, containers nested too deeply. What is so written is *unreadable*. No
decoder accepts it, but it does no harm where nobody looks.

Decoders of recursive data recurse on the parts of a value. A `Part` comes with the proof that it is
smaller than the whole, which is all that their termination needs.
-/

namespace GoLua

/-- A key of an object. -/
structure Json.Key where
  text : String
  /-- Whether the key is written with a backslash in it. -/
  escaped : Bool := false
  deriving DecidableEq, Repr

instance : Coe String Json.Key := ⟨fun text => { text }⟩

/-- A JSON value. -/
inductive Json where
  | null
  | bool (value : Bool)
  /-- A number without fraction or exponent. -/
  | int (negative : Bool) (magnitude : Nat)
  /-- Any other number. -/
  | real (value : Double)
  | string (value : String)
  | array (items : List Json)
  | object (members : List (Json.Key × Json))
  /-- What follows the grammar and has no value. -/
  | unreadable

namespace Json

instance : Inhabited Json := ⟨.null⟩

/-! ### Building values -/

/-- A natural number. -/
def nat (n : Nat) : Json := .int false n

/-- An integer. -/
def ofInt (n : Int) : Json := .int (n < 0) n.natAbs

/-- A value that may be absent. -/
def ofOption {α : Type} (f : α → Json) : Option α → Json
  | none => .null
  | some a => f a

/-- One of several alternatives: its tag with its content. -/
def variant (tag : String) (content : Json) : Json :=
  .object [(tag, content)]

/-! ### Parts of values -/

/-- A value inside another one. -/
structure Part (j : Json) where
  value : Json
  smaller : sizeOf value < sizeOf j

/-- What an object holds under a key. -/
inductive Found (j : Json) where
  | missing
  | one (part : Part j)
  /-- The key is repeated. -/
  | several

theorem sizeOf_lt_of_mem_object {members : List (Key × Json)} {m : Key × Json}
    (h : m ∈ members) : sizeOf m.2 < sizeOf (Json.object members) := by
  have hm := List.sizeOf_lt_of_mem h
  obtain ⟨k, v⟩ := m
  simp only [Prod.mk.sizeOf_spec, object.sizeOf_spec] at hm ⊢
  omega

theorem sizeOf_lt_of_mem_array {items : List Json} {v : Json} (h : v ∈ items) :
    sizeOf v < sizeOf (Json.array items) := by
  have hv := List.sizeOf_lt_of_mem h
  simp only [array.sizeOf_spec]
  omega

/-- Looks for a key. Only an object holds anything. -/
def find (j : Json) (key : String) : Found j :=
  match j with
  | .object members =>
    match h : members.filter (·.1.text == key) with
    | [] => .missing
    | [m] =>
      .one ⟨m.2, sizeOf_lt_of_mem_object
        (List.mem_filter.1 (h ▸ List.mem_singleton_self m)).1⟩
    | _ => .several
  | _ => .missing

/-- The value of a key that an object has to have, once. -/
def get? (j : Json) (key : String) : Option (Part j) :=
  match j.find key with
  | .one part => some part
  | _ => none

/-- The value of a key that an object may lack or leave null. -/
def getOptional? (j : Json) (key : String) : Option (Option (Part j)) :=
  match j.find key with
  | .missing => some none
  | .one ⟨.null, _⟩ => some none
  | .one part => some (some part)
  | .several => none

/-- The items of an array. -/
def items? (j : Json) : Option (List (Part j)) :=
  match j with
  | .array items => some (items.attach.map fun v => ⟨v.1, sizeOf_lt_of_mem_array v.2⟩)
  | _ => none

/-- The tag and content of one of several alternatives. -/
def variant? (j : Json) : Option (String × Part j) :=
  match j with
  | .object [m] => some (m.1.text, ⟨m.2, sizeOf_lt_of_mem_object (List.mem_singleton_self m)⟩)
  | _ => none

/-- The tag of an alternative without content: a string, or a tag with nothing. -/
def label? : Json → Option String
  | .string s => some s
  | .object [(tag, .null)] => some tag.text
  | _ => none

def isObject : Json → Bool
  | .object _ => true
  | _ => false

/-! ### Plain values -/

def bool? : Json → Option Bool
  | .bool b => some b
  | _ => none

def string? : Json → Option String
  | .string s => some s
  | _ => none

/-- A natural number below a bound, written without a sign. -/
def natBelow? (bound : Nat) : Json → Option Nat
  | .int false n => if n < bound then some n else none
  | _ => none

/-- A word of 32 bits. -/
def word32? : Json → Option Nat :=
  natBelow? 0x100000000

/-- A word of 64 bits. -/
def word64? : Json → Option Nat :=
  natBelow? 0x10000000000000000

/-- An integer of a signed cell of 128 bits. -/
def int128? : Json → Option Int
  | .int negative n =>
    let i : Int := if negative then -n else n
    if Int128.least ≤ i ∧ i ≤ Int128.greatest then some i else none
  | _ => none

/-- A value that may be null. -/
def nullable? {α : Type} (decode : Json → Option α) : Json → Option (Option α)
  | .null => some none
  | j => (decode j).map some

/-- The value of a key that an object has to have. -/
def required? {α : Type} (j : Json) (key : String) (decode : Json → Option α) : Option α :=
  (j.get? key).bind fun part => decode part.value

/-- The value of a key that an object may lack. -/
def withDefault? {α : Type} (j : Json) (key : String) (default : α) (decode : Json → Option α) :
    Option α :=
  match j.find key with
  | .missing => some default
  | .one part => decode part.value
  | .several => none

/-- The value of a key that an object may lack or leave null, decoded. -/
def optional? {α : Type} (j : Json) (key : String) (decode : Json → Option α) :
    Option (Option α) :=
  j.withDefault? key none (nullable? decode)

/-- The items of an array, decoded one by one. -/
def list? {α : Type} (decode : Json → Option α) (j : Json) : Option (List α) :=
  match j with
  | .array items => items.mapM decode
  | _ => none

end Json

end GoLua
