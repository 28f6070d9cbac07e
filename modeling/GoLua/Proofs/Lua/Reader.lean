import GoLua.Proofs.Lua.Lexeme

/-!
# Reading Lua expressions

What emitted text means begins with how Lua reads it. `read` is Lua's grammar of expressions, as far
as integers and truth values need it: names, numerals, accesses, calls and operators with their
levels. What it does not know it does not read, and a text that it reads is read as Lua reads it.

The reader goes through the lexemes once, from left to right. What it has not finished is kept on a
stack, the innermost first: brackets that are open, and operators that wait for their operand. An
operator finishes those before it that bind as tightly, and a closing bracket finishes all up to the
opening one (`settle`).

Emitted text is put together from the texts of operands, and two properties of a text say all that
is needed for that.

* A text is *tight* if it is read as one operand wherever an operand may stand: whatever waits on the
  stack, it is read without finishing any of it.
* A text is *whole* if it is read as one expression between brackets.

Every tight text is whole, a tight text with an operator before it is tight, two tight texts with an
operator between them are whole, and a whole text in brackets is tight. So brackets around operators
are enough, and no level has to be compared with another.
-/

namespace GoLua.Lua

/-! ### Expressions -/

/-- An operator with one operand. -/
inductive Unary where
  | neg | bitNot | not
  deriving DecidableEq, Repr

/-- An operator with two operands. -/
inductive Binary where
  | or | and
  | lt | gt | le | ge | ne | eq
  | bitOr | bitXor | bitAnd
  | shiftLeft | shiftRight
  | add | sub | mul
  deriving DecidableEq, Repr

/-- An expression. Integers are cells of 64 bits. -/
inductive Exp where
  | integer (value : BitVec 64)
  | truth (value : Bool)
  | name (name : String)
  | field (table : Exp) (name : String)
  | index (table key : Exp)
  | call (function : Exp) (args : List Exp)
  | unary (op : Unary) (operand : Exp)
  | binary (op : Binary) (left right : Exp)

/-- How an operator is written. -/
def Binary.spelling : Binary → List Char
  | .or => ['o', 'r']
  | .and => ['a', 'n', 'd']
  | .lt => ['<']
  | .gt => ['>']
  | .le => ['<', '=']
  | .ge => ['>', '=']
  | .ne => ['~', '=']
  | .eq => ['=', '=']
  | .bitOr => ['|']
  | .bitXor => ['~']
  | .bitAnd => ['&']
  | .shiftLeft => ['<', '<']
  | .shiftRight => ['>', '>']
  | .add => ['+']
  | .sub => ['-']
  | .mul => ['*']

/-- How tightly an operator binds. Operators with one operand bind more tightly than all of these. -/
def Binary.level : Binary → Nat
  | .or => 1
  | .and => 2
  | .lt | .gt | .le | .ge | .ne | .eq => 3
  | .bitOr => 4
  | .bitXor => 5
  | .bitAnd => 6
  | .shiftLeft | .shiftRight => 7
  | .add | .sub => 9
  | .mul => 10

/-- Every operator with two operands, once. -/
def Binary.all : List Binary :=
  [.or, .and, .lt, .gt, .le, .ge, .ne, .eq, .bitOr, .bitXor, .bitAnd, .shiftLeft, .shiftRight,
    .add, .sub, .mul]

/-! ### Lexemes -/

/-- The operator before an operand that a lexeme stands for. -/
def unary? : List Char → Option Unary
  | ['-'] => some .neg
  | ['~'] => some .bitNot
  | ['n', 'o', 't'] => some .not
  | _ => none

/-- The operator between operands that a lexeme stands for. -/
def binary? (l : List Char) : Option Binary :=
  Binary.all.find? fun op => op.spelling == l

/-- The value of a digit, in any base up to sixteen. -/
def digitValue (c : Char) : Nat :=
  if c.isDigit then c.toNat - '0'.toNat
  else if c.isLower then c.toNat - 'a'.toNat + 10
  else c.toNat - 'A'.toNat + 10

/-- The number that digits stand for. -/
def digitsValue (base : Nat) (digits : List Char) : Nat :=
  digits.foldl (fun n c => n * base + digitValue c) 0

/-- Hexadecimal digits, in both cases. -/
def isHexDigit (c : Char) : Bool :=
  c.isDigit || ('a' ≤ c && c ≤ 'f') || ('A' ≤ c && c ≤ 'F')

/-- The integer that a lexeme is the numeral of. One in hexadecimal wraps around the cell; one in
decimal that does not fit the cell is a float. -/
def numeral? : List Char → Option (BitVec 64)
  | '0' :: 'x' :: d :: ds =>
    if (d :: ds).all isHexDigit then some (BitVec.ofNat 64 (digitsValue 16 (d :: ds))) else none
  | d :: ds =>
    if (d :: ds).all Char.isDigit && digitsValue 10 (d :: ds) < 0x8000000000000000 then
      some (BitVec.ofNat 64 (digitsValue 10 (d :: ds)))
    else none
  | [] => none

/-- The operand that a lexeme is by itself, and whether it may be called or accessed. -/
def operand? (l : List Char) : Option (Exp × Bool) :=
  if l = ['t', 'r', 'u', 'e'] then some (.truth true, false)
  else if l = ['f', 'a', 'l', 's', 'e'] then some (.truth false, false)
  else if isName (String.ofList l) then some (.name (String.ofList l), true)
  else (numeral? l).map fun n => (.integer n, false)

/-! ### The reader -/

/-- What has been begun and waits for something. -/
inductive Frame where
  | paren
  /-- A call with the arguments read so far. -/
  | call (function : Exp) (args : List Exp)
  | index (table : Exp)
  | unary (op : Unary)
  | binary (op : Binary) (left : Exp)

/-- Where the reader stands: before an operand, behind one, or behind a dot. -/
inductive Reader where
  | want (stack : List Frame)
  /-- `callable` tells whether a call or an access may follow. -/
  | have (stack : List Frame) (e : Exp) (callable : Bool)
  | dot (stack : List Frame) (e : Exp)

/-- Finishes the operators that bind at least as tightly as a level. -/
def settle (level : Nat) : List Frame → Exp → List Frame × Exp
  | .unary op :: stack, e => settle level stack (.unary op e)
  | .binary op left :: stack, e =>
    if level ≤ op.level then settle level stack (.binary op left e)
    else (.binary op left :: stack, e)
  | stack, e => (stack, e)

/-- Reads a lexeme where an operand may begin. -/
def stepWant (stack : List Frame) (l : List Char) : Option Reader :=
  if l = ['('] then some (.want (.paren :: stack))
  else
    match l, stack with
    | [')'], .call function [] :: stack => some (.have stack (.call function []) true)
    | l, stack =>
      match unary? l with
      | some op => some (.want (.unary op :: stack))
      | none => (operand? l).map fun e => .have stack e.1 e.2

/-- Closes a round bracket. -/
def closeParen : List Frame × Exp → Option Reader
  | (.paren :: stack, e) => some (.have stack e true)
  | (.call function args :: stack, e) => some (.have stack (.call function (args ++ [e])) true)
  | _ => none

/-- Goes on to the next argument. -/
def nextArg : List Frame × Exp → Option Reader
  | (.call function args :: stack, e) => some (.want (.call function (args ++ [e]) :: stack))
  | _ => none

/-- Closes a square bracket. -/
def closeIndex : List Frame × Exp → Option Reader
  | (.index table :: stack, e) => some (.have stack (.index table e) true)
  | _ => none

/-- Reads a lexeme behind an operand. -/
def stepHave (stack : List Frame) (e : Exp) (callable : Bool) : List Char → Option Reader
  | ['('] => if callable then some (.want (.call e [] :: stack)) else none
  | ['['] => if callable then some (.want (.index e :: stack)) else none
  | ['.'] => if callable then some (.dot stack e) else none
  | [')'] => closeParen (settle 0 stack e)
  | [','] => nextArg (settle 0 stack e)
  | [']'] => closeIndex (settle 0 stack e)
  | l => (binary? l).map fun op =>
    .want (.binary op (settle op.level stack e).2 :: (settle op.level stack e).1)

/-- Reads a lexeme. -/
def step (r : Reader) (l : List Char) : Option Reader :=
  if l = [' '] then some r
  else
    match r with
    | .want stack => stepWant stack l
    | .have stack e callable => stepHave stack e callable l
    | .dot stack e =>
      if isName (String.ofList l) then some (.have stack (.field e (String.ofList l)) true) else none

/-- Reads a text. -/
def readOn (r : Reader) (cs : List Char) : Option Reader :=
  (lexemes cs).foldlM step r

/-- What the reader has read when the text is over. -/
def Reader.result? : Reader → Option Exp
  | .have stack e _ =>
    match settle 0 stack e with
    | ([], e) => some e
    | _ => none
  | _ => none

/-- **Reading.** The expression that a text is. -/
def read (text : String) : Option Exp :=
  (readOn (.want []) text.toList).bind Reader.result?

/-! ### Reading on -/

@[simp] theorem step_blank (r : Reader) : step r [' '] = some r := rfl

/-- Two texts that do not meet in one lexeme are read one after the other. -/
theorem readOn_append {as bs : List Char}
    (h : ∀ c ∈ as.getLast?, ∀ d ∈ bs.head?, meets c d = false) (r : Reader) :
    readOn r (as ++ bs) = (readOn r as).bind fun r => readOn r bs := by
  simp only [readOn, lexemes_append h, List.foldlM_append]
  rfl

/-- A separator ends whatever lexeme stands before it. -/
theorem readOn_append_separator (as : List Char) {c : Char} (h : isSeparator c) (bs : List Char)
    (r : Reader) :
    readOn r (as ++ c :: bs) =
      (readOn r as).bind fun r => (step r [c]).bind fun r => readOn r bs := by
  simp only [readOn, lexemes_append_separator as h, List.foldlM_append, List.foldlM_cons]
  rfl

theorem readOn_separator {c : Char} (h : isSeparator c) (bs : List Char) (r : Reader) :
    readOn r (c :: bs) = (step r [c]).bind fun r => readOn r bs :=
  readOn_append_separator [] h bs r

/-- A text that is one lexeme is read in one step. -/
theorem readOn_of_lexeme {cs : List Char} (h : lexemes cs = [cs]) (r : Reader) :
    readOn r cs = step r cs := by
  simp [readOn, h]

/-! ### Settling -/

/-- Operators before an operand, the innermost first. -/
def applyAll (ops : List Unary) (e : Exp) : Exp :=
  ops.foldl (fun e op => .unary op e) e

/-- Operators before an operand are finished by whatever comes behind it. -/
theorem settle_unary (level : Nat) (ops : List Unary) (stack : List Frame) (e : Exp) :
    settle level (ops.map .unary ++ stack) e = settle level stack (applyAll ops e) := by
  induction ops generalizing e with
  | nil => rfl
  | cons op ops ih => exact ih (.unary op e)

/-- Whether no operator waits at the top of a stack. -/
def Bracketed : List Frame → Prop
  | [] | .paren :: _ | .call _ _ :: _ | .index _ :: _ => True
  | _ => False

/-- Nothing is settled across a bracket. -/
theorem settle_of_bracketed {stack : List Frame} (h : Bracketed stack) (level : Nat) (e : Exp) :
    settle level stack e = (stack, e) := by
  rcases stack with _ | ⟨_ | _ | _ | _ | _, stack⟩
  all_goals first
    | rfl
    | cases h

/-! ### Operands and expressions -/

/-- **Tight text.** It is read as an operand, with operators before it that it brings along, and
touches nothing that waits. -/
def Tight (text : List Char) (a : Exp) : Prop :=
  ∃ ops b callable, applyAll ops b = a ∧
    ∀ stack, readOn (.want stack) text = some (.have (ops.map .unary ++ stack) b callable)

/-- **Whole text.** Between brackets it is read as an expression, which is finished when the closing
bracket is met. -/
def Whole (text : List Char) (a : Exp) : Prop :=
  ∃ frames b callable, ∀ stack, Bracketed stack →
    readOn (.want stack) text = some (.have (frames ++ stack) b callable) ∧
      settle 0 (frames ++ stack) b = (stack, a)

section

variable {text left right : List Char} {a b : Exp}

/-- What is tight is whole. -/
theorem Tight.whole (h : Tight text a) : Whole text a := by
  obtain ⟨ops, b, callable, rfl, hread⟩ := h
  refine ⟨ops.map .unary, b, callable, fun stack hstack => ⟨hread stack, ?_⟩⟩
  rw [settle_unary, settle_of_bracketed hstack]

/-- An expression is what its text is read as. -/
theorem Whole.read {text : String} (h : Whole text.toList a) : read text = some a := by
  obtain ⟨frames, b, callable, hall⟩ := h
  obtain ⟨hread, hsettle⟩ := hall [] trivial
  simp only [Lua.read, hread, Option.bind_some, Reader.result?, hsettle]

/-- A lexeme that is an operand. -/
theorem Tight.lexeme (callable : Bool) (hlexeme : lexemes text = [text])
    (hstep : ∀ stack, step (.want stack) text = some (.have stack a callable)) : Tight text a :=
  ⟨[], a, callable, rfl, fun stack => (readOn_of_lexeme hlexeme _).trans (hstep stack)⟩

/-- Brackets make an operand of an expression. -/
theorem Whole.paren (h : Whole text a) : Tight ('(' :: (text ++ [')'])) a := by
  obtain ⟨frames, b, callable, hall⟩ := h
  refine ⟨[], a, true, rfl, fun stack => ?_⟩
  obtain ⟨hread, hsettle⟩ := hall (.paren :: stack) trivial
  rw [readOn_separator rfl]
  have hopen : step (.want stack) ['('] = some (.want (.paren :: stack)) := rfl
  have hclose : step (.have (frames ++ .paren :: stack) b callable) [')'] =
      closeParen (settle 0 (frames ++ .paren :: stack) b) := rfl
  rw [hopen, Option.bind_some, readOn_append_separator text rfl, hread, Option.bind_some, hclose,
    hsettle]
  rfl

/-- An operator before an operand makes an operand again, unless the two grow together. -/
theorem Tight.unary {c : Char} {op : Unary} (h : Tight text a) (hop : unary? [c] = some op)
    (hmeets : ∀ d ∈ text.head?, meets c d = false) : Tight (c :: text) (.unary op a) := by
  obtain ⟨ops, b, callable, rfl, hread⟩ := h
  refine ⟨ops ++ [op], b, callable, ?_, fun stack => ?_⟩
  · rw [applyAll, List.foldl_append]
    rfl
  -- Both unary operators are lexemes of one character.
  have hstep : step (.want stack) [c] = some (.want (.unary op :: stack)) := by
    unfold unary? at hop
    split at hop
    · next hc => cases hc; cases hop; rfl
    · next hc => cases hc; cases hop; rfl
    · next hc => cases hc
    · cases hop
  have hsplit : c :: text = [c] ++ text := rfl
  have happart : ∀ c' ∈ ([c] : List Char).getLast?, ∀ d ∈ text.head?, meets c' d = false := by
    intro c' hc' d hd
    obtain rfl : c = c' := by simpa using hc'
    exact hmeets d hd
  rw [hsplit, readOn_append happart, readOn_of_lexeme rfl, hstep, Option.bind_some, hread,
    List.map_append, List.append_assoc]
  rfl

theorem lexemes_spelling (op : Binary) : lexemes op.spelling = [op.spelling] := by
  cases op <;> rfl

/-- Behind an operand, an operator finishes what binds as tightly and waits for its other operand. -/
theorem step_binary (op : Binary) (stack : List Frame) (e : Exp) (callable : Bool) :
    step (.have stack e callable) op.spelling =
      some (.want (.binary op (settle op.level stack e).2 :: (settle op.level stack e).1)) := by
  cases op <;> rfl

/-- Behind an operand between brackets, an operator waits with all of it. -/
theorem Tight.readOn_operator (h : Tight left a) (op : Binary) {stack : List Frame}
    (hstack : Bracketed stack) :
    readOn (.want stack) (left ++ ' ' :: op.spelling) = some (.want (.binary op a :: stack)) := by
  obtain ⟨ops, b, callable, rfl, hl⟩ := h
  rw [readOn_append_separator _ rfl, hl, Option.bind_some, step_blank, Option.bind_some,
    readOn_of_lexeme (lexemes_spelling op), step_binary, settle_unary, settle_of_bracketed hstack]

/-- An operator between two operands makes an expression. -/
theorem Tight.binary (hleft : Tight left a) (hright : Tight right b) (op : Binary) :
    Whole (left ++ ' ' :: (op.spelling ++ ' ' :: right)) (.binary op a b) := by
  obtain ⟨ops, b, callable, rfl, hr⟩ := hright
  refine ⟨ops.map .unary ++ [.binary op a], b, callable, fun stack hstack => ?_⟩
  constructor
  · have hsplit : left ++ ' ' :: (op.spelling ++ ' ' :: right) =
        (left ++ ' ' :: op.spelling) ++ ' ' :: right := by simp
    rw [hsplit, readOn_append_separator _ rfl, hleft.readOn_operator op hstack, Option.bind_some,
      step_blank, Option.bind_some, hr, List.append_assoc]
    rfl
  · -- Behind the right operand all is finished: what it brought along, then the operator.
    rw [List.append_assoc, settle_unary]
    exact settle_of_bracketed hstack 0 _

/-- A call of a name with two arguments is an operand. -/
theorem Whole.call (hleft : Whole left a) (hright : Whole right b) {function : List Char} {f : Exp}
    (hlexeme : lexemes function = [function])
    (hstep : ∀ stack, step (.want stack) function = some (.have stack f true)) :
    Tight (function ++ '(' :: (left ++ ',' :: ' ' :: (right ++ [')']))) (.call f [a, b]) := by
  -- Each argument is read on top of the frame of the call, which keeps those before it.
  obtain ⟨frames, x, callable, hl⟩ := hleft
  obtain ⟨frames', y, callable', hr⟩ := hright
  refine ⟨[], .call f [a, b], true, rfl, fun stack => ?_⟩
  obtain ⟨hreadl, hsettlel⟩ := hl (.call f [] :: stack) trivial
  obtain ⟨hreadr, hsettler⟩ := hr (.call f [a] :: stack) trivial
  have hopen : step (.have stack f true) ['('] = some (.want (.call f [] :: stack)) := rfl
  have hcomma : step (.have (frames ++ .call f [] :: stack) x callable) [','] =
      nextArg (settle 0 (frames ++ .call f [] :: stack) x) := rfl
  have hclose : step (.have (frames' ++ .call f [a] :: stack) y callable') [')'] =
      closeParen (settle 0 (frames' ++ .call f [a] :: stack) y) := rfl
  rw [readOn_append_separator _ rfl, readOn_of_lexeme hlexeme, hstep, Option.bind_some, hopen,
    Option.bind_some, readOn_append_separator _ rfl, hreadl, Option.bind_some, hcomma, hsettlel]
  have hnext : nextArg (.call f [] :: stack, a) = some (.want (.call f [a] :: stack)) := rfl
  rw [hnext, Option.bind_some, readOn_separator rfl, step_blank, Option.bind_some,
    readOn_append_separator _ rfl, hreadr, Option.bind_some, hclose, hsettler]
  rfl

end

end GoLua.Lua
