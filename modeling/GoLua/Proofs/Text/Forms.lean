import GoLua.Lower.Host.Method
import GoLua.Lower.Unary
import GoLua.Lower.FunctionLiteral
import GoLua.Proofs.Lua.Numeral
import GoLua.Proofs.Text.Shape

/-!
# The forms of emitted text

Each form in which lowering writes text is in the grammar of emitted text, whatever texts of the grammar
it puts together. Most are read off by their shape; lists and zero values go by induction.
-/

namespace GoLua

open Lua Text

section

variable {V : Vocabulary} {known : String → Prop} {flat : Bool} {text : String}

/-! ### Brackets and lists -/

/-- A fixed text is in the grammar if it can be read. -/
theorem emits_text (h : scan {} (text.toList.map .char) = some flat) : Emits V known flat text :=
  emits_joined [.text text] (by rwa [List.flatMap_singleton]) rfl

/-- A text in brackets is flat. -/
theorem emits_bracketed {o c : Char} (hpair : isPair o c) (h : Emits V known false text) :
    Emits V known true (String.ofList [o] ++ text ++ String.ofList [c]) := by
  have hall : Emitted V known true (o :: text.toList ++ [c]) := .bracket hpair h
  simpa [Emits, String.toList_append] using hall

theorem emits_parenthesized (h : Emits V known flat text) :
    Emits V known true (parenthesized text) :=
  emits_bracketed (o := '(') (c := ')') rfl h.loose

theorem emits_braced (h : Emits V known flat text) : Emits V known true (braced text) :=
  emits_bracketed (o := '\x7b') (c := '\x7d') rfl h.loose

theorem emits_commaSeparated {texts : List String} (h : ∀ text ∈ texts, Emits V known false text) :
    Emits V known false (commaSeparated texts) :=
  intercalate_induction (P := Emits V known false) (.exposed (.word rfl rfl))
    (fun _ _ hs ht => emits_joined [.put hs, .text ", ", .put ht] rfl rfl) h

/-- A call is flat, whatever its arguments are. -/
theorem emits_callText {callee : String} {args : List String} (hcallee : Emits V known true callee)
    (hargs : ∀ arg ∈ args, Emits V known false arg) : Emits V known true (callText callee args) :=
  emits_joined [.put hcallee, .text "(", .put (emits_commaSeparated hargs), .text ")"] rfl
    (by simp only [callText, parenthesized, joined, List.foldl_cons, List.foldl_nil, Part.string,
      String.append_assoc])

theorem emits_quote (s : String) : Emits V known true (quote s) :=
  .literal (isLiteral_quote s)

/-! ### Numbers -/

theorem emits_number (h : text.toList.all isFigure) : Emits V known true text :=
  .number h

theorem emits_nat (n : Nat) : Emits V known true (toString n) :=
  emits_number (all_toString (by decide) n)

theorem all_isFigure_int (n : Int) : (toString n).toList.all isFigure := by
  cases n with
  | ofNat n => exact all_toString (by decide) n
  | negSucc n =>
    have htext : toString (Int.negSucc n) = "-" ++ toString (n + 1) := rfl
    rw [htext, String.toList_append, List.all_append, all_toString (by decide) (n + 1)]
    rfl

theorem emits_int (n : Int) : Emits V known true (toString n) :=
  emits_number (all_isFigure_int n)

theorem emits_hexLiteral (n : Nat) : Emits V known true (hexLiteral n) := by
  refine emits_number ?_
  have hdigits : ((Nat.toDigits 16 n).map Char.toUpper).all isFigure :=
    all_map_toDigits (by decide) (by decide) n
  simp only [hexLiteral, String.toList_append, String.toList_ofList, List.all_append, hdigits]
  rfl

theorem emits_intLiteral (n : Int) : Emits V known true (intLiteral n) := by
  unfold intLiteral
  split
  · exact emits_text rfl
  · split
    · exact emits_hexLiteral _
    · exact emits_int n

theorem all_isFigure_decimalDigits (n : Nat) : (decimalDigits n).all isFigure := by
  simpa [decimalDigits] using @all_map_toDigits 10 id isFigure (by decide) (by decide) n

/-- The digits that are left, and zeros, are figures too. -/
theorem all_isFigure_layout (layout : DecimalLayout) (d : Decimal) :
    (layout.text d).toList.all isFigure := by
  -- The digits may be cut, and zeros put around them; the point and the exponent are figures too.
  have hall := List.all_eq_true.mp (all_isFigure_decimalDigits d.digits)
  have hdigits : ∀ c ∈ dropTrailingZeros (decimalDigits d.digits), isFigure c := fun c hc =>
    hall c (List.mem_reverse.mp ((List.dropWhile_suffix _).subset (List.mem_reverse.mp hc)))
  have hzeros (n : Nat) : ∀ c ∈ List.replicate n '0', isFigure c := by
    intro c hc
    rw [List.eq_of_mem_replicate hc]
    rfl
  rw [List.all_eq_true]
  unfold DecimalLayout.text
  dsimp only
  split
  · split
    · intro c hc
      simp only [String.toList_ofList, List.mem_append, List.cons_append, List.mem_cons] at hc
      rcases hc with rfl | rfl | hc | hc
      · rfl
      · rfl
      · exact hzeros _ c hc
      · exact hdigits c hc
    · split
      · intro c hc
        simp only [String.toList_ofList, List.mem_append, List.mem_cons, List.not_mem_nil,
          or_false] at hc
        rcases hc with (hc | hc) | rfl | rfl
        · exact hdigits c hc
        · exact hzeros _ c hc
        · rfl
        · rfl
      · intro c hc
        simp only [String.toList_ofList, List.mem_append, List.mem_cons] at hc
        rcases hc with hc | rfl | hc
        · exact hdigits c (List.mem_of_mem_take hc)
        · rfl
        · exact hdigits c (List.mem_of_mem_drop hc)
  · intro c hc
    simp only [String.toList_append, String.toList_ofList, List.mem_append] at hc
    rcases hc with ((hc | hc) | hc) | hc
    · exact hdigits c (List.mem_of_mem_take hc)
    · split at hc
      · cases hc
      · rcases List.mem_cons.mp hc with rfl | hc
        · rfl
        · exact hdigits c (List.mem_of_mem_drop hc)
    · obtain rfl : c = 'e' := by simpa using hc
      rfl
    · exact List.all_eq_true.mp (all_isFigure_int _) c hc

/-- So is every double: it may have a sign, and infinities have their own words. -/
theorem all_isFigure_double (x : Double) : x.text.toList.all isFigure := by
  unfold Double.text
  split
  · rfl
  split
  · split <;> rfl
  · unfold DecimalLayout.ofFinite
    rw [String.toList_append, List.all_append]
    have hsign : (if x.isNegative then "-" else "").toList.all isFigure := by split <;> rfl
    rw [hsign, Bool.true_and]
    split
    · rfl
    · exact all_isFigure_layout _ _

theorem emits_floatLiteral (x : Double) : Emits V known true (floatLiteral x) := by
  unfold floatLiteral
  split
  · exact emits_text rfl
  split
  · split
    · exact emits_text rfl
    · exact emits_text rfl
  · exact emits_number (all_isFigure_double x)

/-! ### Names -/

/-- A minted name is a value's only if its hint is. -/
theorem isTelling_minted {hint : String} (h : isHint hint) (hvalue : hint ∉ valueHints) (n : Nat) :
    isTelling (hint ++ toString n).toList = false := by
  rw [isTelling, isBinder_minted, Bool.or_false, ← Bool.not_eq_true, isValueName_minted h]
  exact hvalue

/-- A generated name that holds no value of the program. -/
theorem emits_minted {hint : String} (h : isHint hint) (hvalue : hint ∉ valueHints) (n : Nat) :
    Emits V known true (hint ++ toString n) :=
  .word (List.all_eq_true.mpr (minted_named h n)) (isTelling_minted h hvalue n)

/-- The name of a cache is a word that ends like no value. -/
theorem emits_cacheName (key : String) :
    Emits V known true ("__ptr_" ++ accessorKey key) := by
  refine .word ?_ ?_
  · rw [String.toList_append, List.all_append, Bool.and_eq_true]
    exact ⟨rfl, List.all_eq_true.mpr fun _ => isNameChar_of_mem_accessorKey⟩
  have hbinder : isBinder ("__ptr_" ++ accessorKey key).toList = false := by
    simp [isBinder]
  rw [isTelling, hbinder, Bool.or_false]
  -- No hint of a value starts with two underscores.
  cases hname : isValueName ("__ptr_" ++ accessorKey key).toList with
  | false => rfl
  | true =>
    obtain ⟨hint, hhint, hprefix⟩ := exists_hint_of_isValueName hname
    obtain ⟨rest, hrest⟩ := hprefix
    have hall : ∀ hint ∈ valueHints, hint.toList[1]? ≠ some '_' ∧ 1 < hint.toList.length := by
      decide
    have hsecond := congrArg (·[1]?) hrest
    simp only [String.toList_append] at hsecond
    rw [List.getElem?_append_left (hall hint hhint).2] at hsecond
    exact absurd hsecond (hall hint hhint).1

/-! ### Access chains -/

/-- A name of a field that Lua can spell belongs to the vocabulary. -/
def FieldName (V : Vocabulary) (name : String) : Prop :=
  isName name → V.name name

/-- A step is a dot and a name, or a quoted name in brackets. -/
theorem emits_accessStep {name : String} (h : FieldName V name) :
    Emits V known true (accessStep name) := by
  unfold accessStep
  split
  · next hname => exact emits_joined [.text ".", .put (.name (h hname) (isBinder_of_isName hname))] rfl rfl
  · exact emits_joined [.text "[", .put (emits_quote name), .text "]"] rfl rfl

theorem head?_accessStep (name : String) :
    (accessStep name).toList.head?.any isNameChar = false := by
  unfold accessStep
  split <;> simp [String.toList_append] <;> rfl

/-- A chain of accesses may stand behind a name. -/
theorem head?_accessChain (names : List String) :
    (accessChain names).toList.head?.any isNameChar = false := by
  cases names with
  | nil => rfl
  | cons name names =>
    have hstep := head?_accessStep name
    rw [accessChain, List.map_cons, String.join_cons, String.toList_append]
    cases hchars : (accessStep name).toList with
    | nil =>
      unfold accessStep at hchars
      split at hchars <;> simp [String.toList_append] at hchars
    | cons c cs =>
      rw [hchars] at hstep
      exact hstep

/-- A chain of steps is flat, since each of them ends one name before the next starts. -/
theorem emits_accessChain {names : List String} (h : ∀ name ∈ names, FieldName V name) :
    Emits V known true (accessChain names) := by
  induction names with
  | nil => exact emits_text rfl
  | cons name names ih =>
    have hrest := ih fun name hname => h name (by simp [hname])
    rw [accessChain, List.map_cons, String.join_cons]
    exact emits_joined [.put (emits_accessStep (h name (by simp))),
      .tail hrest (head?_accessChain names)] rfl rfl

/-! ### Aggregates -/

/-- The elements of an array start at zero. -/
theorem emits_zeroBased {elements : List String} (h : ∀ e ∈ elements, Emits V known false e) :
    Emits V known false (zeroBased elements) := by
  unfold zeroBased
  split
  · have hempty : Emits V known true "" := emits_text rfl
    exact hempty.loose
  · exact emits_joined [.text "[0]=", .put (emits_commaSeparated h)] rfl rfl

/-- A call of the library. -/
theorem emits_supportCall {callee : String} {args : List String}
    (hcallee : scan {} (callee.toList.map .char) = some true)
    (hargs : ∀ arg ∈ args, Emits V known true arg) : Emits V known true (callText callee args) :=
  emits_callText (emits_text hcallee) fun arg harg => (hargs arg harg).loose

theorem emits_arrayText {elements : List String} (h : ∀ e ∈ elements, Emits V known false e)
    (elem : GoType) (len : Nat) : Emits V known true (arrayText elements elem len) := by
  refine emits_supportCall rfl ?_
  simp only [List.forall_mem_cons]
  exact ⟨emits_braced (emits_zeroBased h), emits_quote _, emits_nat len, by simp⟩

theorem emits_sliceText {elements : List String} (h : ∀ e ∈ elements, Emits V known false e)
    (elem : GoType) : Emits V known true (sliceText elements elem) := by
  refine emits_supportCall rfl ?_
  simp only [List.forall_mem_cons]
  exact ⟨emits_quote _, emits_braced (emits_zeroBased h), by simp⟩

theorem emits_nilSliceText (elem : GoType) : Emits V known true (nilSliceText elem) := by
  refine emits_supportCall rfl ?_
  simp only [List.forall_mem_cons]
  exact ⟨emits_quote _, emits_text rfl, by simp⟩

theorem emits_mapText {entries : List String} (h : ∀ e ∈ entries, Emits V known false e)
    (key elem : GoType) : Emits V known true (mapText entries key elem) := by
  refine emits_supportCall rfl ?_
  simp only [List.forall_mem_cons]
  exact ⟨emits_quote _, emits_quote _, emits_braced (emits_commaSeparated h), by simp⟩

theorem emits_nilMapText (key elem : GoType) : Emits V known true (nilMapText key elem) := by
  refine emits_supportCall rfl ?_
  simp only [List.forall_mem_cons]
  exact ⟨emits_quote _, emits_quote _, emits_text rfl, by simp⟩

/-- An instance has its type, and a value for each name. -/
theorem emits_structText {values : List String} (h : ∀ v ∈ values, Emits V known false v)
    (type : GoType) (names : List String) : Emits V known true (structText type names values) := by
  have hentries : ∀ entry ∈ List.zipWith (fun name value => "[" ++ quote name ++ "]=" ++ value)
      names values, Emits V known false entry := by
    intro entry hentry
    rw [← List.map_uncurry_zip_eq_zipWith, List.mem_map] at hentry
    obtain ⟨⟨name, value⟩, hmem, rfl⟩ := hentry
    exact emits_joined [.text "[", .put (emits_quote name), .text "]=",
      .put (h value (List.of_mem_zip hmem).2)] rfl rfl
  refine emits_supportCall rfl ?_
  simp only [List.forall_mem_cons]
  exact ⟨emits_quote _, emits_braced (emits_commaSeparated hentries), by simp⟩

/-! ### Zero values -/

theorem emits_kindZero (k : Kind) : Emits V known true k.zero := by
  cases k <;> exact emits_text rfl

/-- A property of texts that all forms of zero values have, for types of which something is known. -/
structure ZeroForms (R : GoType → Prop) (P : String → Prop) : Prop where
  definition : ∀ {name definition}, R (.named name definition) → R definition
  element : ∀ {elem len}, R (.array elem len) → R elem
  field : ∀ {fields}, R (.struct fields) → ∀ f ∈ fields, R f.type
  kind : ∀ k : Kind, P k.zero
  array : ∀ {elem len zero}, R (.array elem len) → P zero →
    P (arrayText (List.replicate len zero) elem len)
  slice : ∀ {elem}, R (.slice elem) → P (nilSliceText elem)
  map : ∀ {key elem}, R (.map key elem) → P (nilMapText key elem)
  struct : ∀ {declared fields zeros}, R declared → R (.struct fields) → (∀ z ∈ zeros, P z) →
    P (structText declared (fields.map Field.name) zeros)
  null : P "nil"
  func : P Support.nilPointerError
  chan : P Support.chanNil

section

variable {R : GoType → Prop} {P : String → Prop}

mutual

/-- What holds of all forms of zero values holds of each zero value. -/
theorem ZeroForms.of_type (hP : ZeroForms R P) (t : GoType) {declared : GoType} {zero : String}
    (ht : R t) (hdeclared : R declared) (h : t.zeroAs declared = .ok zero) : P zero := by
  -- By recursion on the type; only arrays and structs hold further zero values.
  cases t with
  | named name definition => exact hP.of_type definition (hP.definition ht) hdeclared h
  | basic k =>
    obtain rfl := Except.ok.inj h
    exact hP.kind k
  | array elem len =>
    cases hzero : elem.zeroAs elem with
    | error culprit => simp [GoType.zeroAs, hzero, Except.map] at h
    | ok z =>
      simp only [GoType.zeroAs, hzero, Except.map] at h
      obtain rfl := Except.ok.inj h
      exact hP.array ht (hP.of_type elem (hP.element ht) (hP.element ht) hzero)
  | slice elem =>
    obtain rfl := Except.ok.inj h
    exact hP.slice ht
  | map key elem =>
    obtain rfl := Except.ok.inj h
    exact hP.map ht
  | struct fields =>
    cases hzeros : fieldZeros fields with
    | error culprit => simp [GoType.zeroAs, hzeros, Except.map] at h
    | ok zeros =>
      simp only [GoType.zeroAs, hzeros, Except.map] at h
      obtain rfl := Except.ok.inj h
      exact hP.struct hdeclared ht (hP.of_fields fields (hP.field ht) hzeros)
  | pointer elem =>
    obtain rfl := Except.ok.inj h
    exact hP.null
  | interface methods =>
    obtain rfl := Except.ok.inj h
    exact hP.null
  | func sig =>
    obtain rfl := Except.ok.inj h
    exact hP.func
  | chan elem =>
    obtain rfl := Except.ok.inj h
    exact hP.chan
  | tuple types => cases h
termination_by structural t

theorem ZeroForms.of_fields (hP : ZeroForms R P) (fs : List Field) {zeros : List String}
    (hfs : ∀ f ∈ fs, R f.type) (h : fieldZeros fs = .ok zeros) : ∀ zero ∈ zeros, P zero := by
  cases fs with
  | nil =>
    obtain rfl := Except.ok.inj h
    exact fun _ h => absurd h List.not_mem_nil
  | cons f fs =>
    cases hzero : f.zero with
    | error culprit => simp [fieldZeros, hzero, bind, Except.bind] at h
    | ok z =>
      cases hzeros : fieldZeros fs with
      | error culprit => simp [fieldZeros, hzero, hzeros, bind, Except.bind] at h
      | ok zs =>
        simp only [fieldZeros, hzero, hzeros, bind, Except.bind, pure, Except.pure] at h
        obtain rfl := Except.ok.inj h
        intro zero hmem
        rcases List.mem_cons.mp hmem with rfl | hmem
        · exact hP.of_field f (hfs f (by simp)) hzero
        · exact hP.of_fields fs (fun f hf => hfs f (by simp [hf])) hzeros zero hmem
termination_by structural fs

theorem ZeroForms.of_field (hP : ZeroForms R P) (f : Field) {zero : String} (hf : R f.type)
    (h : f.zero = .ok zero) : P zero := by
  cases f with
  | mk name type embedded hostTag => exact hP.of_type type hf hf h
termination_by structural f

end

end

/-- The zero values of all types are in the grammar. -/
theorem emits_zero {t : GoType} {zero : String} (h : t.zero = .ok zero) :
    Emits V known true zero := by
  have hforms : ZeroForms (fun _ => True) (Emits V known true) :=
    { definition := fun _ => trivial
      element := fun _ => trivial
      field := fun _ _ _ => trivial
      kind := emits_kindZero
      array := fun _ hzero => emits_arrayText
        (fun e he => by rw [List.eq_of_mem_replicate he]; exact hzero.loose) _ _
      slice := fun _ => emits_nilSliceText _
      map := fun _ => emits_nilMapText _ _
      struct := fun _ _ hzeros => emits_structText (fun z hz => (hzeros z hz).loose) _ _
      null := emits_text rfl
      func := emits_text rfl
      chan := emits_text rfl }
  exact hforms.of_type t trivial trivial h

end

end GoLua
