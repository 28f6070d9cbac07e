import GoLua.Lower.Constant
import GoLua.Lower.Object
import GoLua.Proofs.Integer.Operator
import GoLua.Proofs.Lua.Numeral

/-!
# Texts of integer expressions

Which expression a fragment is, for the fragments that the rules of integers put together: names of
variables, literals, operators, calls of the library and cuts. A fragment is known by its text, which
is read as a whole, and by its text as an operand, which is read as an operand (`Fragment.Denotes`).
-/

namespace GoLua

open Lua

/-! ### Fragments -/

/-- A fragment is read as an expression, by itself and as an operand. An operand starts with nothing
that an operator before it grows together with. -/
structure Fragment.Denotes (f : Fragment) (a : Exp) : Prop where
  whole : Whole f.text.toList a
  tight : Tight f.operand.toList a
  head : ∀ c ∈ f.operand.toList.head?, c ≠ '=' ∧ c ≠ '-'

/-- A text in brackets, in characters. -/
theorem toList_parenthesized (text : String) :
    (Text.parenthesized text).toList = '(' :: (text.toList ++ [')']) := by
  simp [Text.parenthesized, String.toList_append]

section

variable {f : Fragment} {text operand left right between half mask : String} {a b : Exp}
  {m n : BitVec 64}

/-- A fragment that can be an operand as it is. -/
theorem Fragment.Denotes.atom (h : Tight text.toList a)
    (hhead : ∀ c ∈ text.toList.head?, c ≠ '=' ∧ c ≠ '-') : (Fragment.atom text).Denotes a :=
  ⟨h.whole, h, hhead⟩

/-- A fragment with an operator at its top, which brackets make an operand. -/
theorem Fragment.Denotes.operation (h : Whole text.toList a) :
    (Fragment.operation text).Denotes a := by
  refine ⟨h, ?_, ?_⟩
  · rw [operand_operation, toList_parenthesized]
    exact h.paren
  · rw [operand_operation, toList_parenthesized]
    rintro c ⟨⟩
    decide

/-! ### Operators -/

/-- A minus, before what does not begin with one. -/
theorem tight_neg (h : Tight operand.toList a) (hhead : ∀ c ∈ operand.toList.head?, c ≠ '-') :
    Tight ("-" ++ operand).toList (.unary .neg a) := by
  have htext : ("-" ++ operand).toList = '-' :: operand.toList := String.toList_append
  rw [htext]
  refine h.unary rfl fun d hd => ?_
  have hne := hhead d hd
  refine Bool.or_eq_false_iff.mpr ⟨rfl, ?_⟩
  unfold isPair
  split <;> simp_all

/-- A complement, before what does not begin with an equality sign. -/
theorem tight_bitNot (h : Tight operand.toList a) (hhead : ∀ c ∈ operand.toList.head?, c ≠ '=') :
    Tight ("~" ++ operand).toList (.unary .bitNot a) := by
  have htext : ("~" ++ operand).toList = '~' :: operand.toList := String.toList_append
  rw [htext]
  refine h.unary rfl fun d hd => ?_
  have hne := hhead d hd
  refine Bool.or_eq_false_iff.mpr ⟨rfl, ?_⟩
  unfold isPair
  split <;> simp_all

/-- An operator between two operands, with blanks around it. -/
theorem whole_binary (hl : Tight left.toList a) (hr : Tight right.toList b) {op : Binary}
    (hbetween : between.toList = ' ' :: (op.spelling ++ [' '])) :
    Whole (left ++ between ++ right).toList (.binary op a b) := by
  have htext : (left ++ between ++ right).toList =
      left.toList ++ ' ' :: (op.spelling ++ ' ' :: right.toList) := by
    simp [String.toList_append, hbetween]
  rw [htext]
  exact hl.binary hr op

/-! ### Cuts -/

/-- A mask of an operand. -/
theorem whole_masked (h : Tight operand.toList a) (hmask : Tight mask.toList (.integer m)) :
    Whole (operand ++ " & " ++ mask).toList (.binary .bitAnd a (.integer m)) :=
  whole_binary h hmask rfl

/-- Adding half the range, masking, and taking the half away again. -/
theorem whole_centred (h : Tight operand.toList a) (hhalf : Tight half.toList (.integer n))
    (hmask : Tight mask.toList (.integer m)) :
    Whole ("((" ++ operand ++ " + " ++ half ++ ") & " ++ mask ++ ") - " ++ half).toList
      (.binary .sub (.binary .bitAnd (.binary .add a (.integer n)) (.integer m)) (.integer n)) := by
  have htext : ("((" ++ operand ++ " + " ++ half ++ ") & " ++ mask ++ ") - " ++ half).toList =
      ('(' :: (('(' :: ((operand.toList ++ ' ' :: (['+'] ++ ' ' :: half.toList)) ++ [')']) ++
        ' ' :: (['&'] ++ ' ' :: mask.toList)) ++ [')'])) ++ ' ' :: (['-'] ++ ' ' :: half.toList) := by
    simp [String.toList_append]
  rw [htext]
  exact ((h.binary hhalf .add).paren.binary hmask .bitAnd).paren.binary hhalf .sub

/-- What is written to cut a fragment puts the operand between operators and numerals. -/
theorem whole_cutToWidth {k : Kind} (hk : needsCut k) (h : Tight f.operand.toList a) :
    Whole (cutToWidth f k).text.toList (cutExp k a) := by
  -- By the width: shifted by half and back with a sign, and only masked without.
  cases k
  case int8 | int16 =>
    exact whole_centred h (tight_toString (by decide)) (tight_toString (by decide))
  case uint8 | uint16 => exact whole_masked h (tight_toString (by decide))
  case uint32 | uint | uintptr =>
    have hmask : Tight "0xFFFFFFFF".toList (.integer 0xFFFFFFFF) := tight_hexLiteral 0xFFFFFFFF
    have htext : f.operand ++ " & 0xFFFFFFFF" = f.operand ++ " & " ++ "0xFFFFFFFF" := by
      rw [String.append_assoc]
      rfl
    change Whole (f.operand ++ " & 0xFFFFFFFF").toList _
    rw [htext]
    exact whole_masked h hmask
  all_goals cases hk

/-- The text of cutting has an operator at its top. -/
theorem cutToWidth_eq_operation {k : Kind} (hk : needsCut k) (f : Fragment) :
    cutToWidth f k = .operation (cutToWidth f k).text := by
  cases k <;> first
    | rfl
    | cases hk

/-- A fragment that is cut. -/
theorem Fragment.Denotes.cut (h : f.Denotes a) (k : Kind) :
    (cutToWidth f k).Denotes (cutExp k a) := by
  -- What is not cut keeps its text and its meaning.
  cases hk : needsCut k with
  | true =>
    rw [cutToWidth_eq_operation hk]
    exact .operation (whole_cutToWidth hk h.tight)
  | false =>
    have hnone : cutExp k a = a := by
      cases k <;> first
        | rfl
        | cases hk
    rw [cutToWidth_of_not_needsCut hk, hnone]
    exact h

end

/-! ### Literals -/

/-- The digits of a numeral start with a digit, which no operator grows together with. -/
theorem head_intLiteral {n : Int} :
    ∀ c ∈ (intLiteral n).toList.head?, c ≠ '=' ∧ (0 ≤ n → c ≠ '-') := by
  have hdigit {m : Nat} : ∀ c ∈ (toString m).toList.head?, c ≠ '=' ∧ c ≠ '-' := by
    intro c hc
    have hisDigit := isDigit_of_mem_head?_toString hc
    constructor <;>
    · rintro rfl
      cases hisDigit
  intro c hc
  unfold intLiteral at hc
  -- The name of the least integer, a numeral in hexadecimal, or one in decimal.
  split at hc
  · obtain rfl : 'm' = c := by simpa [minInteger] using hc
    exact ⟨by decide, fun _ => by decide⟩
  split at hc
  · obtain rfl : '0' = c := by simpa [hexLiteral, String.toList_append] using hc
    exact ⟨by decide, fun _ => by decide⟩
  cases n with
  | ofNat m => exact ⟨(hdigit c hc).1, fun _ => (hdigit c hc).2⟩
  | negSucc m =>
    have htext : (toString (Int.negSucc m)).toList = '-' :: (toString (m + 1)).toList :=
      String.toList_append
    rw [htext] at hc
    obtain rfl : '-' = c := by simpa using hc
    exact ⟨by decide, fun h => absurd h (Int.not_le.mpr (Int.negSucc_lt_zero m))⟩

/-- The literal of an integer that is not below the least one of the cell. -/
theorem denotes_integerFragment {n : Int} (h : -0x8000000000000000 ≤ n) :
    (integerFragment n).Denotes (literalExp n) := by
  have htight := tight_intLiteral h
  -- Only a literal with a sign gets brackets where it becomes an operand.
  by_cases hneg : n < 0
  · have hfragment : integerFragment n = .operation (intLiteral n) := by
      simp [integerFragment, Fragment.operation, hneg]
    rw [hfragment]
    exact .operation htight.whole
  · have hfragment : integerFragment n = .atom (intLiteral n) := by
      simp [integerFragment, Fragment.atom, hneg]
    rw [hfragment]
    exact .atom htight fun c hc =>
      ⟨(head_intLiteral c hc).1, (head_intLiteral c hc).2 (Int.not_lt.mp hneg)⟩

/-- A constant with an integer view is written as an integer in the kinds of integers. -/
theorem inKind_of_isInteger {c : Constant} {k : Kind} {n : Int} (hk : k.isInteger)
    (hn : c.toInt? = some n) (desired : Option GoType) :
    c.inKind k desired = some (some (integerFragment (wrapInteger n (targetKind k desired)))) := by
  have htruth : k.isTruth = false := by
    revert hk
    cases k <;> decide
  rw [Constant.inKind, htruth, hk, hn]
  rfl

/-- A literal comes to the cell of its integer. -/
theorem eval_literalExp {globals : String → Value} (hlibrary : Library globals) (n : Int) :
    (literalExp n).eval globals = .ok (.ofInt n) := by
  unfold literalExp
  split
  -- The least number is an entry of the library, for its digits alone are no integer of a cell.
  · next hmin =>
    obtain ⟨math, hmath, hfield⟩ := hlibrary.minInteger
    subst hmin
    change Value.entry (.name "mininteger") (globals "math") = _
    rw [hmath, Value.entry, hfield]
    rfl
  split
  -- A number below zero is the opposite of a numeral.
  · next hneg =>
    change Except.ok (Value.integer (-BitVec.ofNat 64 n.natAbs)) = _
    obtain ⟨m, rfl⟩ : ∃ m : Nat, n = -(m : Int) := ⟨n.natAbs, by omega⟩
    rw [Value.ofInt, cell_neg, cell, BitVec.ofInt_natCast, Int.natAbs_neg, Int.natAbs_natCast]
  · next hneg =>
    obtain ⟨m, rfl⟩ := Int.eq_ofNat_of_zero_le (Int.not_lt.mp hneg)
    change Except.ok (Value.integer (BitVec.ofNat 64 m)) = _
    rw [Value.ofInt, cell, BitVec.ofInt_natCast]

/-! ### Names -/

/-- A character of names is no sign. -/
theorem ne_sign_of_isNameChar {c : Char} (h : isNameChar c) : c ≠ '=' ∧ c ≠ '-' := by
  constructor <;>
  · rintro rfl
    cases h

section

variable {config : Config} {obj : Object} {name : String}

/-- The ends of a name. -/
theorem ends_of_isName (h : isName name) :
    (∀ c ∈ name.toList.head?, isNameChar c) ∧ ∀ c ∈ name.toList.getLast?, isNameChar c := by
  obtain ⟨d, ds, hname, -, hall, -⟩ := toList_of_isName h
  rw [hname]
  exact ⟨fun c hc => List.all_eq_true.mp hall c (List.mem_of_mem_head? hc),
    fun c hc => List.all_eq_true.mp hall c (List.mem_of_mem_getLast? hc)⟩

/-- A name is read as one word. -/
theorem readOn_of_isName (h : isName name) (stack : List Frame) :
    readOn (.want stack) name.toList = some (.have stack (.name name) true) := by
  rw [readOn_of_lexeme (lexemes_of_isName h), step_want_of_isName h]

/-- Behind a dot, a name is the name of a field. -/
theorem readOn_dot (h : isName name) (stack : List Frame) (e : Exp) :
    readOn (.have stack e true) ('.' :: name.toList) = some (.have stack (.field e name) true) := by
  have hsplit : '.' :: name.toList = ['.'] ++ name.toList := rfl
  have hdot : step (.have stack e true) ['.'] = some (.dot stack e) := rfl
  -- A dot does not grow together with the name behind it.
  have hmeets : ∀ c ∈ (['.'] : List Char).getLast?, ∀ d ∈ name.toList.head?, meets c d = false := by
    rintro c ⟨⟩ d hd
    exact (meets_isNameChar ((ends_of_isName h).1 d hd) rfl).2
  have hne : name.toList ≠ [' '] := by
    intro hblank
    have := (ends_of_isName h).1 ' ' (by rw [hblank]; rfl)
    cases this
  rw [hsplit, readOn_append hmeets, readOn_of_lexeme rfl, hdot, Option.bind_some,
    readOn_of_lexeme (lexemes_of_isName h), step, if_neg hne]
  simp [String.ofList_toList, h]

/-- A name that may be qualified is read as an access. Its ends are characters of names. -/
theorem readOn_qualifiedName (h : obj.IsSpelled config) :
    (∀ stack, readOn (.want stack) (qualifiedName config obj).toList =
        some (.have stack (obj.qualifiedPlace config) true)) ∧
      (∀ c ∈ (qualifiedName config obj).toList.head?, isNameChar c) ∧
      ∀ c ∈ (qualifiedName config obj).toList.getLast?, isNameChar c := by
  obtain ⟨hname, hpackage⟩ := h
  unfold qualifiedName Object.qualifiedPlace
  cases hobj : obj.package with
  | none => exact ⟨readOn_of_isName hname, ends_of_isName hname⟩
  | some package =>
    dsimp only
    split
    · exact ⟨readOn_of_isName hname, ends_of_isName hname⟩
    · next hother =>
      have hqualifier := hpackage package hobj hother
      have htext : (packageName package ++ "." ++ safeName obj.name).toList =
          (packageName package).toList ++ '.' :: (safeName obj.name).toList := by
        simp [String.toList_append]
      -- The dot is a lexeme of its own, so both names are read as they are.
      have hmeets : ∀ c ∈ (packageName package).toList.getLast?,
          ∀ d ∈ ('.' :: (safeName obj.name).toList).head?, meets c d = false := by
        rintro c hc d ⟨⟩
        exact (meets_isNameChar ((ends_of_isName hqualifier).2 c hc) rfl).1
      rw [htext]
      refine ⟨fun stack => ?_, ?_, ?_⟩
      · rw [readOn_append hmeets, readOn_of_isName hqualifier, Option.bind_some, readOn_dot hname]
      · obtain ⟨c, cs, hlist, hc, -⟩ := toList_of_isName hqualifier
        rw [hlist]
        rintro d ⟨⟩
        exact hc
      · obtain ⟨c, cs, hlist, -⟩ := toList_of_isName hname
        have hlast : ((packageName package).toList ++ '.' :: (safeName obj.name).toList).getLast? =
            (safeName obj.name).toList.getLast? := by
          rw [hlist, List.getLast?_append, List.getLast?_cons_cons,
            List.getLast?_eq_some_getLast (List.cons_ne_nil c cs), Option.some_or]
        rw [hlast]
        exact (ends_of_isName hname).2

/-- **Variables.** The name of a variable is read as its place. -/
theorem denotes_objectName (h : obj.IsSpelled config) :
    (Fragment.atom (objectName config obj)).Denotes (obj.place config) := by
  obtain ⟨hread, hhead, hlast⟩ := readOn_qualifiedName h
  unfold objectName Object.place
  split
  · -- A box is accessed at its first element.
    have htext : (qualifiedName config obj ++ "[0]").toList =
        (qualifiedName config obj).toList ++ ['[', '0', ']'] := by
      simp [String.toList_append]
    have hmeets : ∀ c ∈ (qualifiedName config obj).toList.getLast?,
        ∀ d ∈ (['[', '0', ']'] : List Char).head?, meets c d = false := by
      rintro c hc d ⟨⟩
      exact (meets_isNameChar (hlast c hc) rfl).1
    refine .atom ?_ ?_
    · rw [htext]
      refine ⟨[], _, true, rfl, fun stack => ?_⟩
      rw [readOn_append hmeets, hread, Option.bind_some]
      rfl
    · rw [htext]
      intro c hc
      cases hq : (qualifiedName config obj).toList with
      | nil =>
        rw [hq] at hc
        obtain rfl : '[' = c := by simpa using hc
        decide
      | cons d ds =>
        rw [hq] at hc hhead
        exact ne_sign_of_isNameChar (hhead c hc)
  -- Without a box the name is the place.
  · exact .atom ⟨[], _, true, rfl, hread⟩ fun c hc =>
      ne_sign_of_isNameChar (hhead c hc)

/-- A call of a named function with two arguments. -/
theorem denotes_call {left right : String} {a b : Exp} (hname : isName name)
    (hl : Whole left.toList a) (hr : Whole right.toList b) :
    (Fragment.atom (String.ofList (name.toList ++ ['(']) ++ left ++ ", " ++ right ++ ")")).Denotes
      (.call (.name name) [a, b]) := by
  have htext : (String.ofList (name.toList ++ ['(']) ++ left ++ ", " ++ right ++ ")").toList =
      name.toList ++ '(' :: (left.toList ++ ',' :: ' ' :: (right.toList ++ [')'])) := by
    simp [String.toList_append]
  -- The name of the helper is read first, then its arguments one after the other.
  obtain ⟨d, ds, hlist, hd, -⟩ := toList_of_isName hname
  refine .atom ?_ ?_
  · rw [htext]
    exact hl.call hr (lexemes_of_isName hname) (step_want_of_isName hname)
  · rw [htext, hlist]
    rintro c ⟨⟩
    exact ne_sign_of_isNameChar hd

end

end GoLua
