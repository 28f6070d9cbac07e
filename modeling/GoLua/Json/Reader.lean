import GoLua.Json.Number

/-!
# Reading JSON texts

A reader of JSON texts. It accepts exactly one value with blanks around it. Only the grammar decides
what is accepted; what follows it and still has no value is read as unreadable. Containers may be
nested only so deep, and one that is nested deeper is unreadable, whatever it holds.

Each function takes the characters that are left and returns what it read with the rest. The readers
of values call one another on the rest, which is shorter; since the rest of a value is only known
when the value has been read, the recursion is on a count of steps, and a text of `n` characters
takes fewer than `2 * n + 2`.
-/

namespace GoLua.Json

/-- The blanks of JSON. -/
def isBlank (c : Char) : Bool :=
  c == ' ' || c == '\t' || c == '\n' || c == '\r'

def skipBlanks (s : List Char) : List Char :=
  s.dropWhile isBlank

/-! ### Strings -/

/-- The value of a hexadecimal digit. -/
def hexDigit? (c : Char) : Option Nat :=
  if c.isDigit then some (c.toNat - '0'.toNat)
  else if 'a' ≤ c ∧ c ≤ 'f' then some (c.toNat - 'a'.toNat + 10)
  else if 'A' ≤ c ∧ c ≤ 'F' then some (c.toNat - 'A'.toNat + 10)
  else none

/-- The unit that four hexadecimal digits write. -/
def hexUnit? (a b c d : Char) : Option Nat :=
  match hexDigit? a, hexDigit? b, hexDigit? c, hexDigit? d with
  | some a, some b, some c, some d => some (((a * 16 + b) * 16 + c) * 16 + d)
  | _, _, _, _ => none

/-- What a backslash and a letter stand for. -/
def escape? : Char → Option Char
  | '"' => some '"'
  | '\\' => some '\\'
  | '/' => some '/'
  | 'b' => some '\x08'
  | 'f' => some '\x0c'
  | 'n' => some '\n'
  | 'r' => some '\r'
  | 't' => some '\t'
  | _ => none

/-- The first half of a pair of units. -/
def isHighUnit (u : Nat) : Bool := 0xD800 ≤ u && u < 0xDC00

/-- The second half of a pair of units. -/
def isLowUnit (u : Nat) : Bool := 0xDC00 ≤ u && u < 0xE000

/-- What a string is written with: characters that stand for themselves, characters behind a
backslash, and units that are written by number. -/
inductive StringPiece where
  | char (c : Char)
  | escape (c : Char)
  | unit (u : Nat)

/-- Whether a piece is written with a backslash. -/
def StringPiece.isEscaped : StringPiece → Bool
  | .char _ => false
  | .escape _ | .unit _ => true

/-- The pieces of a string up to its closing quote. Controls have to be escaped. -/
def stringPieces : List Char → Option (List StringPiece × List Char)
  | [] => none
  | '"' :: r => some ([], r)
  | '\\' :: 'u' :: a :: b :: c :: d :: r =>
    match hexUnit? a b c d with
    | none => none
    | some u => (stringPieces r).map fun (ps, r) => (.unit u :: ps, r)
  | '\\' :: c :: r =>
    match escape? c with
    | none => none
    | some c => (stringPieces r).map fun (ps, r) => (.escape c :: ps, r)
  | c :: r =>
    if c < ' ' || c == '\\' then none
    else (stringPieces r).map fun (ps, r) => (.char c :: ps, r)

/-- The characters that pieces stand for. Two units may make one character; half of such a pair
stands for none. -/
def joinPieces : List StringPiece → Option (List Char)
  | [] => some []
  | .char c :: ps | .escape c :: ps => (joinPieces ps).map (c :: ·)
  | .unit u :: ps =>
    if isHighUnit u then
      match ps with
      | .unit v :: ps =>
        if isLowUnit v then
          (joinPieces ps).map (Char.ofNat (0x10000 + (u - 0xD800) * 0x400 + (v - 0xDC00)) :: ·)
        else none
      | _ => none
    -- The second half of a pair, with no first half before it.
    else if isLowUnit u then none
    else (joinPieces ps).map (Char.ofNat u :: ·)

/-- The string that pieces make. -/
def stringOf (ps : List StringPiece) : Json :=
  match joinPieces ps with
  | some cs => .string (String.ofList cs)
  | none => .unreadable

/-- The key that pieces make. -/
def keyOf? (ps : List StringPiece) : Option Key :=
  (joinPieces ps).map fun cs => ⟨String.ofList cs, ps.any StringPiece.isEscaped⟩

/-- The object that members make; one with a key that has no value is unreadable as a whole. -/
def objectOf (ms : List (List StringPiece × Json)) : Json :=
  match ms.mapM fun m => (keyOf? m.1).map (·, m.2) with
  | some ms => .object ms
  | none => .unreadable

/-! ### Numbers -/

/-- The digits of an exponent with its sign, after the letter. -/
def exponentPart (s : List Char) : Option (List Char × Bool × List Char) :=
  let (negative, s) := match s with
    | '-' :: r => (true, r)
    | '+' :: r => (false, r)
    | r => (false, r)
  match s.span Char.isDigit with
  | ([], _) => none
  | (digits, r) => some (digits, negative, r)

/-- A number without its sign. -/
def unsignedNumber (negative : Bool) (s : List Char) : Option (Json × List Char) :=
  let signed (x : Option Double) : Json :=
    match x with
    | some x => .real (if negative then x.neg else x)
    | none => .unreadable
  match s.span Char.isDigit with
  | ([], _) => none
  -- No digit follows a leading zero.
  | ('0' :: _ :: _, _) => none
  | (whole, '.' :: r) =>
    match r.span Char.isDigit with
    | ([], _) => none
    | (fraction, c :: r) =>
      if c == 'e' || c == 'E' then
        (exponentPart r).map fun (digits, below, r) =>
          (signed (readDouble whole fraction digits below), r)
      else some (signed (readDouble whole fraction [] false), c :: r)
    | (fraction, []) => some (signed (readDouble whole fraction [] false), [])
  | (whole, c :: r) =>
    if c == 'e' || c == 'E' then
      (exponentPart r).map fun (digits, below, r) => (signed (readDouble whole [] digits below), r)
    else some (.int negative (whole.foldl (fun n c => n * 10 + digitValue c) 0), c :: r)
  | (whole, []) => some (.int negative (whole.foldl (fun n c => n * 10 + digitValue c) 0), [])

/-- A number: a whole part without leading zeros, and perhaps a fraction and an exponent. -/
def number : List Char → Option (Json × List Char)
  | '-' :: r => unsignedNumber true r
  | r => unsignedNumber false r

/-! ### Values -/

/-- A container, where `depth` more may be nested. -/
def atDepth (depth : Nat) (container : Json) : Json :=
  if depth = 0 then .unreadable else container

mutual

/-- A value, and the characters after it. -/
def value : Nat → Nat → List Char → Option (Json × List Char)
  | 0, _, _ => none
  | steps + 1, depth, s =>
    match skipBlanks s with
    | 'n' :: 'u' :: 'l' :: 'l' :: r => some (.null, r)
    | 't' :: 'r' :: 'u' :: 'e' :: r => some (.bool true, r)
    | 'f' :: 'a' :: 'l' :: 's' :: 'e' :: r => some (.bool false, r)
    | '"' :: r => (stringPieces r).map fun (ps, r) => (stringOf ps, r)
    | '[' :: r =>
      match skipBlanks r with
      | ']' :: r => some (atDepth depth (.array []), r)
      | r => (items steps (depth - 1) r).map fun (vs, r) => (atDepth depth (.array vs), r)
    | '\x7b' :: r =>
      match skipBlanks r with
      | '\x7d' :: r => some (atDepth depth (.object []), r)
      | r => (members steps (depth - 1) r).map fun (ms, r) => (atDepth depth (objectOf ms), r)
    | r => number r
termination_by structural steps => steps

/-- The items of an array up to its end; there is at least one. -/
def items : Nat → Nat → List Char → Option (List Json × List Char)
  | 0, _, _ => none
  | steps + 1, depth, s =>
    match value steps depth s with
    | none => none
    | some (v, r) =>
      match skipBlanks r with
      | ']' :: r => some ([v], r)
      | ',' :: r => (items steps depth r).map fun (vs, r) => (v :: vs, r)
      | _ => none
termination_by structural steps => steps

/-- The members of an object up to its end; there is at least one. -/
def members : Nat → Nat → List Char → Option (List (List StringPiece × Json) × List Char)
  | 0, _, _ => none
  | steps + 1, depth, s =>
    match skipBlanks s with
    | '"' :: r =>
      match stringPieces r with
      | none => none
      | some (key, r) =>
        match skipBlanks r with
        | ':' :: r =>
          match value steps depth r with
          | none => none
          | some (v, r) =>
            match skipBlanks r with
            | '\x7d' :: r => some ([(key, v)], r)
            | ',' :: r => (members steps depth r).map fun (ms, r) => ((key, v) :: ms, r)
            | _ => none
        | _ => none
    | _ => none
termination_by structural steps => steps

end

/-- The value of a whole text, with at most `depth` readable containers inside one another. -/
def parse? (depth : Nat) (text : String) : Option Json :=
  let s := text.toList
  match value (2 * s.length + 2) depth s with
  | some (v, r) => if (skipBlanks r).isEmpty then some v else none
  | none => none

/-- How deep the containers of a data file may be nested. -/
def dataDepth : Nat := 127

end GoLua.Json
