import GoLua.Go.Expr.Json
import GoLua.Proofs.Json.Form

/-!
# Forms of expression trees

What an expression tree is written as is a form of it (`Expr.isForm_toJson`), if the numbers of its
nodes, their positions and the handles of its function bodies fit the words that they are read into.
-/

namespace GoLua

open Json

variable {stable : Double → Prop}

/-! ### Positions -/

namespace Location

/-- Whether line and column fit a word of 32 bits. -/
def fits (l : Location) : Bool :=
  l.line < 0x100000000 && l.column < 0x100000000

/-- A location is read back from its form. -/
theorem isForm_toJson (stable : Double → Prop) (l : Location) (h : l.fits) :
    IsForm stable Location.ofJson? l.toJson l := by
  rw [fits, Bool.and_eq_true, decide_eq_true_iff, decide_eq_true_iff] at h
  have hline := isForm_word32 stable h.1
  have hcolumn := isForm_word32 stable h.2
  refine ⟨.member rfl (.string l.filename) (.member rfl hline.isWritten (.member rfl
    hcolumn.isWritten .noMembers)), fun hj => ?_⟩
  have hfilename := (hj.holds "filename" _ rfl).required? (noDefault rfl)
    (isForm_string stable l.filename)
  have hline := (hj.holds "line" _ rfl).required? (noDefault rfl) hline
  have hcolumn := (hj.holds "column" _ rfl).required? (noDefault rfl) hcolumn
  rw [Location.ofJson?]
  simp [hfilename, hline, hcolumn]

end Location

namespace Span

/-- Whether both ends of a span fit. -/
def fits (s : Span) : Bool :=
  s.start.fits && s.stop.fits

/-- A span is read back from its form. -/
theorem isForm_toJson (stable : Double → Prop) (s : Span) (h : s.fits) :
    IsForm stable Span.ofJson? s.toJson s := by
  rw [fits, Bool.and_eq_true] at h
  have hstart := s.start.isForm_toJson stable h.1
  have hstop := s.stop.isForm_toJson stable h.2
  refine ⟨.member rfl hstart.isWritten (.member rfl hstop.isWritten .noMembers), fun hj => ?_⟩
  have hstart := (hj.holds "start" _ rfl).required? (noDefault rfl) hstart
  have hstop := (hj.holds "end" _ rfl).required? (noDefault rfl) hstop
  rw [Span.ofJson?]
  simp [hstart, hstop]

end Span

/-- Whether the number and the span of a node fit words of 32 bits. -/
def Node.fits (n : Node) : Bool :=
  n.id < 0x100000000 && n.span.fits

/-! ### Trees -/

mutual

/-- Whether everything that is numbered in a tree fits words of 32 bits. -/
def Expr.fits : Expr → Bool
  | .basicLit n _ | .ident n _ | .typeExpr n => n.fits
  | .unary n _ operand => n.fits && operand.fits
  | .binary n _ left right => n.fits && left.fits && right.fits
  | .index n base index => n.fits && base.fits && index.fits
  | .slice n base low high max =>
    n.fits && base.fits && optionFits low && optionFits high && optionFits max
  | .selector n base sel => n.fits && base.fits && sel.fits
  | .call n func args _ => n.fits && func.fits && argsFit args
  | .compositeLit n elements => n.fits && elementsFit elements
  | .typeAssert n base asserted => n.fits && base.fits && optionFits asserted
  | .paren n inner => n.fits && inner.fits
  | .star n inner => n.fits && inner.fits
  | .funcLit n body => n.fits && body < 0x100000000
termination_by structural e => e

/-- Whether everything in a tree that may be missing fits. -/
def optionFits : Option Expr → Bool
  | none => true
  | some e => e.fits
termination_by structural e => e

/-- Whether everything in several trees fits. -/
def argsFit : List Expr → Bool
  | [] => true
  | e :: es => e.fits && argsFit es
termination_by structural es => es

/-- Whether everything in the elements of a literal fits. -/
def elementsFit : List Element → Bool
  | [] => true
  | e :: es => e.fits && elementsFit es
termination_by structural es => es

/-- Whether everything in an element fits. -/
def Element.fits : Element → Bool
  | ⟨key, value⟩ => optionFits key && value.fits
termination_by structural e => e

end

/-- The form of an expression is an object. -/
theorem Expr.toJson_ne_null (e : Expr) : e.toJson ≠ .null := by
  cases e <;> rintro ⟨⟩

/-- A variant with a body is not read as the label of another. -/
theorem label?_ne_of_variant? {j : Json} {tag s : String} {p : Part j}
    (h : j.variant? = some (tag, p)) (hne : tag ≠ s) : j.label? ≠ some s := by
  unfold Json.variant? at h
  split at h
  · next m =>
    obtain ⟨key, v⟩ := m
    cases h
    cases v
    case null => exact fun heq => hne (Option.some_inj.mp heq)
    all_goals rintro ⟨⟩
  · cases h

/-- The form of an expression, whose kind is one of several alternatives. -/
theorem isForm_node {n : Node} (hn : n.fits) {tag : String} {body : Json} {e : Expr}
    (htag : tag ≠ "TypeExpr") (hkey : defaultOf? tag ≠ some body)
    (htext : (tag : Key).IsWritten) (hbody : body.IsWritten stable)
    (h : ∀ {j k b hk hb}, j.required? "node_id" word32? = some n.id →
      j.required? "span" Span.ofJson? = some n.span → j.get? "kind" = some ⟨k, hk⟩ →
      k.label? ≠ some "TypeExpr" → k.variant? = some (tag, ⟨b, hb⟩) → body.LeavesOut b →
      Expr.ofJson? j = some e) :
    IsForm stable Expr.ofJson? (n.toJson (.variant tag body)) e := by
  rw [Node.fits, Bool.and_eq_true, decide_eq_true_iff] at hn
  have hid := isForm_word32 stable hn.1
  have hspan := n.span.isForm_toJson stable hn.2
  refine ⟨.member rfl hid.isWritten (.member rfl (.member htext hbody .noMembers) (.member rfl
    hspan.isWritten .noMembers)), fun hj => ?_⟩
  -- What is read first is the kind; the other two members stand beside it.
  obtain ⟨k, _, hget, hk⟩ := (hj.holds "kind" _ rfl).get? (noDefault rfl)
  have hid := (hj.holds "node_id" _ rfl).required? (noDefault rfl) hid
  have hspan := (hj.holds "span" _ rfl).required? (noDefault rfl) hspan
  obtain ⟨b, _, hvariant, hb⟩ := hk.variant? hkey
  exact h hid hspan hget (label?_ne_of_variant? hvariant htag) hvariant hb

/-- A part that may be absent is absent, or found and read. -/
theorem getOptional?_optionToJson {j : Json} {key : String} {o : Option Expr}
    (h : j.Holds key (optionToJson o)) (hkey : defaultOf? key = some .null)
    (ho : ∀ e ∈ o, IsForm stable Expr.ofJson? e.toJson e) :
    (o = none ∧ j.getOptional? key = some none) ∨
      ∃ e w hsmaller, o = some e ∧ j.getOptional? key = some (some ⟨w, hsmaller⟩) ∧
        Expr.ofJson? w = some e := by
  cases o with
  | none => exact .inl ⟨rfl, h.getOptional?_null⟩
  | some e =>
    have hne : defaultOf? key ≠ some e.toJson := by
      rw [hkey]
      exact fun heq => e.toJson_ne_null (Option.some_inj.mp heq).symm
    obtain ⟨w, _, hget, hw⟩ := h.getOptional?_some hne e.toJson_ne_null
    exact .inr ⟨e, w, _, rfl, hget, (ho e rfl).decode_eq hw⟩

/-- An optional operand can be written. -/
theorem isWritten_optionToJson {o : Option Expr}
    (h : ∀ e ∈ o, IsForm stable Expr.ofJson? e.toJson e) :
    (optionToJson o).IsWritten stable := by
  cases o with
  | none => exact .null
  | some e => exact (h e rfl).isWritten

/-! ### One kind of expression at a time -/

section

variable {n : Node}

theorem isForm_basicLit (hn : n.fits) (token : String) :
    IsForm stable Expr.ofJson? (Expr.basicLit n token).toJson (.basicLit n token) := by
  refine isForm_node hn (by decide) (noDefault rfl) rfl (.member rfl (.string token) .noMembers) ?_
  intro j k b hk hb hid hspan hget hlabel htag hbody
  have htoken := (hbody.holds "value" _ rfl).required? (noDefault rfl) (isForm_string stable token)
  rw [Expr.ofJson?]
  simp [hid, hspan, hget, hlabel, htag, htoken]

theorem isForm_ident (hn : n.fits) (name : String) :
    IsForm stable Expr.ofJson? (Expr.ident n name).toJson (.ident n name) := by
  refine isForm_node hn (by decide) (noDefault rfl) rfl (.member rfl (.string name) .noMembers) ?_
  intro j k b hk hb hid hspan hget hlabel htag hbody
  have hname := (hbody.holds "name" _ rfl).required? (noDefault rfl) (isForm_string stable name)
  rw [Expr.ofJson?]
  simp [hid, hspan, hget, hlabel, htag, hname]

/-- One operator and one operand. -/
theorem isForm_unary (hn : n.fits) (op : UnaryOp) {operand : Expr}
    (hoperand : IsForm stable Expr.ofJson? operand.toJson operand) :
    IsForm stable Expr.ofJson? (Expr.unary n op operand).toJson (.unary n op operand) := by
  have hop := isForm_label stable (show UnaryOp.ofLabel? op.label = some op by cases op <;> decide)
  refine isForm_node hn (by decide) (noDefault rfl) rfl (.member rfl hop.isWritten (.member rfl
    hoperand.isWritten .noMembers)) ?_
  intro j k b hk hb hid hspan hget hlabel htag hbody
  have hop := (hbody.holds "op" _ rfl).required? (noDefault rfl) hop
  obtain ⟨_, _, hgetOperand, hw⟩ := (hbody.holds "operand" _ rfl).part? (noDefault rfl) hoperand
  rw [Expr.ofJson?]
  simp [hid, hspan, hget, hlabel, htag, hop, hgetOperand, hw]

/-- Each operand is read back where the body holds it. -/
theorem isForm_binary (hn : n.fits) (op : BinaryOp) {left right : Expr}
    (hleft : IsForm stable Expr.ofJson? left.toJson left)
    (hright : IsForm stable Expr.ofJson? right.toJson right) :
    IsForm stable Expr.ofJson? (Expr.binary n op left right).toJson (.binary n op left right) := by
  have hop := isForm_label stable (show BinaryOp.ofLabel? op.label = some op by cases op <;> decide)
  refine isForm_node hn (by decide) (noDefault rfl) rfl (.member rfl hop.isWritten (.member rfl
    hleft.isWritten (.member rfl hright.isWritten .noMembers))) ?_
  intro j k b hk hb hid hspan hget hlabel htag hbody
  have hop := (hbody.holds "op" _ rfl).required? (noDefault rfl) hop
  obtain ⟨_, _, hgetLeft, hl⟩ := (hbody.holds "left" _ rfl).part? (noDefault rfl) hleft
  obtain ⟨_, _, hgetRight, hr⟩ := (hbody.holds "right" _ rfl).part? (noDefault rfl) hright
  rw [Expr.ofJson?]
  simp [hid, hspan, hget, hlabel, htag, hop, hgetLeft, hl, hgetRight,
    hr]

theorem isForm_index (hn : n.fits) {base index : Expr}
    (hbase : IsForm stable Expr.ofJson? base.toJson base)
    (hindex : IsForm stable Expr.ofJson? index.toJson index) :
    IsForm stable Expr.ofJson? (Expr.index n base index).toJson (.index n base index) := by
  refine isForm_node hn (by decide) (noDefault rfl) rfl (.member rfl hbase.isWritten (.member rfl
    hindex.isWritten .noMembers)) ?_
  intro j k b hk hb hid hspan hget hlabel htag hbody
  obtain ⟨_, _, hgetBase, hw⟩ := (hbody.holds "base" _ rfl).part? (noDefault rfl) hbase
  obtain ⟨_, _, hgetIndex, hi⟩ := (hbody.holds "index" _ rfl).part? (noDefault rfl) hindex
  rw [Expr.ofJson?]
  simp [hid, hspan, hget, hlabel, htag, hgetBase, hw, hgetIndex,
    hi]

/-- The three bounds of a slice may each be missing. -/
theorem isForm_slice (hn : n.fits) {base : Expr} {low high max : Option Expr}
    (hbase : IsForm stable Expr.ofJson? base.toJson base)
    (hlow : ∀ e ∈ low, IsForm stable Expr.ofJson? e.toJson e)
    (hhigh : ∀ e ∈ high, IsForm stable Expr.ofJson? e.toJson e)
    (hmax : ∀ e ∈ max, IsForm stable Expr.ofJson? e.toJson e) :
    IsForm stable Expr.ofJson? (Expr.slice n base low high max).toJson
      (.slice n base low high max) := by
  refine isForm_node hn (by decide) (noDefault rfl) rfl (.member rfl hbase.isWritten (.member rfl
    (isWritten_optionToJson hlow) (.member rfl (isWritten_optionToJson hhigh) (.member rfl
      (isWritten_optionToJson hmax) .noMembers)))) ?_
  intro j k b hk hb hid hspan hget hlabel htag hbody
  obtain ⟨_, _, hgetBase, hw⟩ := (hbody.holds "base" _ rfl).part? (noDefault rfl) hbase
  have hlow := getOptional?_optionToJson (hbody.holds "low" _ rfl) rfl hlow
  have hhigh := getOptional?_optionToJson (hbody.holds "high" _ rfl) rfl hhigh
  have hmax := getOptional?_optionToJson (hbody.holds "max" _ rfl) rfl hmax
  rw [Expr.ofJson?]
  simp only [hid, hspan, hget, hlabel, htag, hgetBase, hw, Option.bind_eq_bind,
    Option.bind_some, if_false]
  -- Each bound is either there or was left out: eight cases, all of them computed.
  rcases hlow with ⟨rfl, hlow⟩ | ⟨_, _, _, rfl, hlow, _⟩ <;>
    rcases hhigh with ⟨rfl, hhigh⟩ | ⟨_, _, _, rfl, hhigh, _⟩ <;>
    rcases hmax with ⟨rfl, hmax⟩ | ⟨_, _, _, rfl, hmax, _⟩ <;>
    simp [*]

theorem isForm_selector (hn : n.fits) {base sel : Expr}
    (hbase : IsForm stable Expr.ofJson? base.toJson base)
    (hsel : IsForm stable Expr.ofJson? sel.toJson sel) :
    IsForm stable Expr.ofJson? (Expr.selector n base sel).toJson (.selector n base sel) := by
  refine isForm_node hn (by decide) (noDefault rfl) rfl (.member rfl hbase.isWritten (.member rfl
    hsel.isWritten .noMembers)) ?_
  intro j k b hk hb hid hspan hget hlabel htag hbody
  obtain ⟨_, _, hgetBase, hw⟩ := (hbody.holds "base" _ rfl).part? (noDefault rfl) hbase
  obtain ⟨_, _, hgetSel, hs⟩ := (hbody.holds "sel" _ rfl).part? (noDefault rfl) hsel
  rw [Expr.ofJson?]
  simp [hid, hspan, hget, hlabel, htag, hgetBase, hw, hgetSel, hs]

/-- A call is read back with all of its arguments. -/
theorem isForm_call (hn : n.fits) {func : Expr} {args : List Expr} (ellipsis : Bool)
    (hfunc : IsForm stable Expr.ofJson? func.toJson func)
    (hargs : List.Forall₂ (IsForm stable Expr.ofJson?) (argsToJson args) args) :
    IsForm stable Expr.ofJson? (Expr.call n func args ellipsis).toJson
      (.call n func args ellipsis) := by
  refine isForm_node hn (by decide) (noDefault rfl) rfl (.member rfl hfunc.isWritten (.member rfl
    (isWritten_of_forall₂ hargs) (.member rfl (.bool ellipsis) .noMembers))) ?_
  intro j k b hk hb hid hspan hget hlabel htag hbody
  obtain ⟨_, _, hgetFunc, hf⟩ := (hbody.holds "func" _ rfl).part? (noDefault rfl) hfunc
  obtain ⟨w, _, hgetArgs, hw⟩ := (hbody.holds "args" _ rfl).get? (noDefault rfl)
  obtain ⟨parts, hparts, hread⟩ := hw.items? hargs
  have hellipsis := (hbody.holds "ellipsis" _ rfl).required? (noDefault rfl)
    (isForm_bool stable ellipsis)
  rw [Expr.ofJson?]
  simp [hid, hspan, hget, hlabel, htag, hgetFunc, hf, hgetArgs, hparts, hread,
    hellipsis]

theorem isForm_compositeLit (hn : n.fits) {elements : List Element}
    (helements : List.Forall₂ (IsForm stable Element.ofJson?) (elementsToJson elements) elements) :
    IsForm stable Expr.ofJson? (Expr.compositeLit n elements).toJson
      (.compositeLit n elements) := by
  refine isForm_node hn (by decide) (noDefault rfl) rfl (.member rfl
    (isWritten_of_forall₂ helements) .noMembers) ?_
  intro j k b hk hb hid hspan hget hlabel htag hbody
  obtain ⟨w, _, hgetElements, hw⟩ := (hbody.holds "elements" _ rfl).get? (noDefault rfl)
  obtain ⟨parts, hparts, hread⟩ := hw.items? helements
  rw [Expr.ofJson?]
  simp [hid, hspan, hget, hlabel, htag, hgetElements, hparts, hread]

/-- A type switch asserts no type, so what is asserted may be missing. -/
theorem isForm_typeAssert (hn : n.fits) {base : Expr} {asserted : Option Expr}
    (hbase : IsForm stable Expr.ofJson? base.toJson base)
    (hasserted : ∀ e ∈ asserted, IsForm stable Expr.ofJson? e.toJson e) :
    IsForm stable Expr.ofJson? (Expr.typeAssert n base asserted).toJson
      (.typeAssert n base asserted) := by
  refine isForm_node hn (by decide) (noDefault rfl) rfl (.member rfl hbase.isWritten (.member rfl
    (isWritten_optionToJson hasserted) .noMembers)) ?_
  intro j k b hk hb hid hspan hget hlabel htag hbody
  obtain ⟨_, _, hgetBase, hw⟩ := (hbody.holds "base" _ rfl).part? (noDefault rfl) hbase
  have hasserted := getOptional?_optionToJson (hbody.holds "asserted" _ rfl) rfl hasserted
  rw [Expr.ofJson?]
  rcases hasserted with ⟨rfl, hgetType⟩ | ⟨t, _, _, rfl, hgetType, ht⟩
  · simp [hid, hspan, hget, hlabel, htag, hgetBase, hw, hgetType]
  · simp [hid, hspan, hget, hlabel, htag, hgetBase, hw, hgetType, ht]

theorem isForm_paren (hn : n.fits) {inner : Expr}
    (hinner : IsForm stable Expr.ofJson? inner.toJson inner) :
    IsForm stable Expr.ofJson? (Expr.paren n inner).toJson (.paren n inner) := by
  refine isForm_node hn (by decide) (noDefault rfl) rfl hinner.isWritten ?_
  intro j k b hk hb hid hspan hget hlabel htag hbody
  rw [Expr.ofJson?]
  simp [hid, hspan, hget, hlabel, htag, hinner.decode_eq hbody]

theorem isForm_star (hn : n.fits) {inner : Expr}
    (hinner : IsForm stable Expr.ofJson? inner.toJson inner) :
    IsForm stable Expr.ofJson? (Expr.star n inner).toJson (.star n inner) := by
  refine isForm_node hn (by decide) (noDefault rfl) rfl hinner.isWritten ?_
  intro j k b hk hb hid hspan hget hlabel htag hbody
  rw [Expr.ofJson?]
  simp [hid, hspan, hget, hlabel, htag, hinner.decode_eq hbody]

/-- A function literal holds the number of its body only. -/
theorem isForm_funcLit (hn : n.fits) {body : Nat} (h : body < 0x100000000) :
    IsForm stable Expr.ofJson? (Expr.funcLit n body).toJson (.funcLit n body) := by
  have hhandle := isForm_word32 stable h
  refine isForm_node hn (by decide) (noDefault rfl) rfl (.member rfl hhandle.isWritten
    .noMembers) ?_
  intro j k b hk hb hid hspan hget hlabel htag hbody
  have hread := (hbody.holds "body" _ rfl).required? (noDefault rfl) hhandle
  rw [Expr.ofJson?]
  simp [hid, hspan, hget, hlabel, htag, hread]

/-- An expression that denotes a type has a label for its kind, and no content. -/
theorem isForm_typeExpr (hn : n.fits) :
    IsForm stable Expr.ofJson? (Expr.typeExpr n).toJson (.typeExpr n) := by
  rw [Node.fits, Bool.and_eq_true, decide_eq_true_iff] at hn
  have hid := isForm_word32 stable hn.1
  have hspan := n.span.isForm_toJson stable hn.2
  refine ⟨.member rfl hid.isWritten (.member rfl (.string _) (.member rfl hspan.isWritten
    .noMembers)), fun hj => ?_⟩
  obtain ⟨k, _, hget, hk⟩ := (hj.holds "kind" _ rfl).get? (noDefault rfl)
  have hid := (hj.holds "node_id" _ rfl).required? (noDefault rfl) hid
  have hspan := (hj.holds "span" _ rfl).required? (noDefault rfl) hspan
  cases hk
  rw [Expr.ofJson?]
  simp [hid, hspan, hget, label?]

/-- An element is read back with its key, if it has one. -/
theorem isForm_element {key : Option Expr} {value : Expr}
    (hkey : ∀ e ∈ key, IsForm stable Expr.ofJson? e.toJson e)
    (hvalue : IsForm stable Expr.ofJson? value.toJson value) :
    IsForm stable Element.ofJson? (Element.mk key value).toJson ⟨key, value⟩ := by
  refine ⟨.member rfl (isWritten_optionToJson hkey) (.member rfl hvalue.isWritten .noMembers),
    fun hj => ?_⟩
  have hkey := getOptional?_optionToJson (hj.holds "key" _ rfl) rfl hkey
  obtain ⟨_, _, hget, hw⟩ := (hj.holds "value" _ rfl).part? (noDefault rfl) hvalue
  rw [Element.ofJson?]
  rcases hkey with ⟨rfl, hgetKey⟩ | ⟨k, _, _, rfl, hgetKey, hk⟩
  · simp [hgetKey, hget, hw]
  · simp [hgetKey, hk, hget, hw]

end

/-! ### All of them -/

variable (stable)

mutual

/-- An expression is read back from its form: the form of a node is that of its parts. -/
theorem Expr.isForm_toJson (e : Expr) (h : e.fits) : IsForm stable Expr.ofJson? e.toJson e := by
  -- One lemma for each constructor; the parts are smaller, so they are read back by recursion.
  cases e with
  | basicLit n token => exact isForm_basicLit h token
  | ident n name => exact isForm_ident h name
  | unary n op operand =>
    rw [Expr.fits, Bool.and_eq_true] at h
    exact isForm_unary h.1 op (operand.isForm_toJson h.2)
  | binary n op left right =>
    rw [Expr.fits, Bool.and_eq_true, Bool.and_eq_true] at h
    exact isForm_binary h.1.1 op (left.isForm_toJson h.1.2) (right.isForm_toJson h.2)
  | index n base index =>
    rw [Expr.fits, Bool.and_eq_true, Bool.and_eq_true] at h
    exact isForm_index h.1.1 (base.isForm_toJson h.1.2) (index.isForm_toJson h.2)
  | slice n base low high max =>
    simp only [Expr.fits, Bool.and_eq_true] at h
    obtain ⟨⟨⟨⟨hn, hbase⟩, hlow⟩, hhigh⟩, hmax⟩ := h
    exact isForm_slice hn (base.isForm_toJson hbase) (isForm_optionToJson low hlow)
      (isForm_optionToJson high hhigh) (isForm_optionToJson max hmax)
  | selector n base sel =>
    rw [Expr.fits, Bool.and_eq_true, Bool.and_eq_true] at h
    exact isForm_selector h.1.1 (base.isForm_toJson h.1.2) (sel.isForm_toJson h.2)
  | call n func args ellipsis =>
    rw [Expr.fits, Bool.and_eq_true, Bool.and_eq_true] at h
    exact isForm_call h.1.1 ellipsis (func.isForm_toJson h.1.2) (forall₂_argsToJson args h.2)
  | compositeLit n elements =>
    rw [Expr.fits, Bool.and_eq_true] at h
    exact isForm_compositeLit h.1 (forall₂_elementsToJson elements h.2)
  | typeAssert n base asserted =>
    rw [Expr.fits, Bool.and_eq_true, Bool.and_eq_true] at h
    exact isForm_typeAssert h.1.1 (base.isForm_toJson h.1.2) (isForm_optionToJson asserted h.2)
  | paren n inner =>
    rw [Expr.fits, Bool.and_eq_true] at h
    exact isForm_paren h.1 (inner.isForm_toJson h.2)
  | star n inner =>
    rw [Expr.fits, Bool.and_eq_true] at h
    exact isForm_star h.1 (inner.isForm_toJson h.2)
  | funcLit n body =>
    rw [Expr.fits, Bool.and_eq_true, decide_eq_true_iff] at h
    exact isForm_funcLit h.1 h.2
  | typeExpr n => exact isForm_typeExpr h
termination_by structural e

/-- So is an operand that may be missing. -/
theorem isForm_optionToJson (o : Option Expr) (h : optionFits o) :
    ∀ e ∈ o, IsForm stable Expr.ofJson? e.toJson e := by
  cases o with
  | none => rintro _ ⟨⟩
  | some e =>
    rintro _ ⟨⟩
    exact e.isForm_toJson h
termination_by structural o

/-- The arguments of a call are. -/
theorem forall₂_argsToJson (es : List Expr) (h : argsFit es) :
    List.Forall₂ (IsForm stable Expr.ofJson?) (argsToJson es) es := by
  cases es with
  | nil => exact .nil
  | cons e es =>
    rw [argsFit, Bool.and_eq_true] at h
    exact .cons (e.isForm_toJson h.1) (forall₂_argsToJson es h.2)
termination_by structural es

/-- The elements of a literal are. -/
theorem forall₂_elementsToJson (es : List Element) (h : elementsFit es) :
    List.Forall₂ (IsForm stable Element.ofJson?) (elementsToJson es) es := by
  cases es with
  | nil => exact .nil
  | cons e es =>
    rw [elementsFit, Bool.and_eq_true] at h
    exact .cons (e.isForm_toJson h.1) (forall₂_elementsToJson es h.2)
termination_by structural es

/-- And so is each element. -/
theorem Element.isForm_toJson (e : Element) (h : e.fits) :
    IsForm stable Element.ofJson? e.toJson e := by
  cases e with
  | mk key value =>
    rw [Element.fits, Bool.and_eq_true] at h
    exact isForm_element (isForm_optionToJson key h.1) (value.isForm_toJson h.2)
termination_by structural e

end

end GoLua
