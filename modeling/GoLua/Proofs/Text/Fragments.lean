import GoLua.Proofs.Text.Forms

/-!
# Sound fragments

A fragment is *sound* if its text is in the grammar of emitted text, and flat unless the fragment asks
for brackets. A sound fragment can be an operand, a callee and what an operator is applied to; and the
fragments that lowering makes of constants and names are sound.
-/

namespace GoLua

open Lua Text Lower

section

variable {V : Vocabulary} {known known' : String → Prop} {flat : Bool} {text : String}
  {f : Fragment}

/-- A fragment whose text is in the grammar, and flat unless it asks for brackets. -/
structure Fragment.Sound (V : Vocabulary) (known : String → Prop) (f : Fragment) : Prop where
  text : Emits V known false f.text
  flat : f.parens = false → Emits V known true f.text

namespace Fragment.Sound

theorem mono (h : f.Sound V known) (hknown : ∀ w, known w → known' w) : f.Sound V known' :=
  ⟨h.text.mono hknown, fun hparens => (h.flat hparens).mono hknown⟩

theorem atom (h : Emits V known true text) : (Fragment.atom text).Sound V known :=
  ⟨h.loose, fun _ => h⟩

theorem operation (h : Emits V known flat text) : (Fragment.operation text).Sound V known :=
  ⟨h.loose, fun h => by cases h⟩

/-- Every text is flat that asks for no brackets, and any other is between brackets. -/
theorem operand (h : f.Sound V known) : Emits V known true f.operand := by
  unfold Fragment.operand
  split
  · exact emits_parenthesized h.text
  · next hparens => exact h.flat (by simpa using hparens)

/-- A fragment is callable when it is bracketed. -/
theorem callable (h : f.Sound V known) : Emits V known true f.callable := by
  unfold Fragment.callable
  dsimp only
  split
  · exact h.operand
  · exact emits_parenthesized h.operand

/-- Negating keeps a fragment sound. -/
theorem negateIf (h : f.Sound V known) (negated : Bool) : (f.negateIf negated).Sound V known := by
  unfold Fragment.negateIf
  split
  · exact .operation (emits_joined [.text "not ", .put h.operand] rfl rfl)
  · exact h

/-- Cutting to a width puts operators around an operand. -/
theorem cutToWidth (h : f.Sound V known) (kind : Kind) : (Lua.cutToWidth f kind).Sound V known := by
  -- Three forms of a cut: a mask, a mask around a shifted centre, and the mask of a word.
  have hmasked (mask : String) (hmask : Emits V known true mask) :
      (Fragment.operation (f.operand ++ " & " ++ mask)).Sound V known :=
    .operation (emits_joined [.put h.operand, .text " & ", .put hmask] rfl rfl)
  have hcentred (half mask : Nat) : (Fragment.operation ("((" ++ f.operand ++ " + " ++
      toString half ++ ") & " ++ toString mask ++ ") - " ++ toString half)).Sound V known :=
    .operation (emits_joined [.text "((", .put h.operand, .text " + ", .put (emits_nat half),
      .text ") & ", .put (emits_nat mask), .text ") - ", .put (emits_nat half)] rfl rfl)
  have hword : (Fragment.operation (f.operand ++ " & 0xFFFFFFFF")).Sound V known :=
    .operation (emits_joined [.put h.operand, .text " & 0xFFFFFFFF"] rfl rfl)
  unfold Lua.cutToWidth
  dsimp only
  split
  · exact hcentred _ _
  · exact hcentred _ _
  · exact hmasked _ (emits_nat _)
  · exact hmasked _ (emits_nat _)
  · exact hword
  · exact hword
  · exact hword
  · exact h

end Fragment.Sound

/-! ### Constants -/

/-- The literal of a constant can be written without brackets, whatever it asks for. -/
theorem emits_inKind {c : Constant} {kind : Kind} {desired : Option GoType}
    (h : c.inKind kind desired = some (some f)) : Emits V known true f.text := by
  unfold Constant.inKind at h
  -- The kind of the target decides how the value is spelled.
  split at h
  · obtain ⟨b, -, rfl⟩ := Option.map_eq_some_iff.mp (Option.some.inj h)
    cases b <;> exact emits_text rfl
  split at h
  · obtain ⟨n, -, rfl⟩ := Option.map_eq_some_iff.mp (Option.some.inj h)
    exact emits_intLiteral _
  split at h
  · obtain ⟨x, -, rfl⟩ := Option.map_eq_some_iff.mp (Option.some.inj h)
    exact emits_floatLiteral x
  split at h
  · obtain ⟨re, -, h⟩ := Option.bind_eq_some_iff.mp (Option.some.inj h)
    obtain ⟨im, -, rfl⟩ := Option.map_eq_some_iff.mp h
    refine emits_callText (emits_text rfl) fun arg harg => ?_
    simp only [List.mem_cons, List.not_mem_nil, or_false] at harg
    rcases harg with rfl | rfl
    · exact (emits_floatLiteral re).loose
    · exact (emits_floatLiteral im).loose
  split at h
  · obtain ⟨s, -, rfl⟩ := Option.map_eq_some_iff.mp (Option.some.inj h)
    exact emits_quote s
  · cases h

/-- A constant that is lowered is emitted. -/
theorem emits_constant {c : Constant} {type : GoType} {desired : Option GoType}
    {location : Location} (h : c.lower type desired location = .ok f) :
    Emits V known true f.text := by
  unfold Constant.lower at h
  split at h
  · cases h
  split at h
  · cases h
  · cases h
  · next hkind =>
    obtain rfl := Except.ok.inj h
    exact emits_inKind hkind

/-! ### Entities -/

/-- Characters of names are quiet. -/
theorem isQuiet_of_isNameChar {t : List Char} (h : ∀ c ∈ t, isNameChar c) : IsQuiet t := by
  refine fun c hc => ⟨fun heq => ?_, fun heq => ?_⟩
  all_goals
    have hname := h c hc
    rw [heq] at hname
    cases hname

/-- An entity whose name may be written: alone, behind the name of its package, and, if it lives in a
box, without the index of the box. -/
structure Object.Sound (V : Vocabulary) (known : String → Prop) (obj : Object) : Prop where
  name : Emits V known true (safeName obj.name)
  package : ∀ package, obj.package = some package → Emits V known true (packageName package ++ ".")
  unboxed : obj.escaping → Emits V known true (dropBoxIndex (safeName obj.name))
  quiet : V.strict → IsQuiet obj.name.toList ∧
    ∀ package, obj.package = some package → IsQuiet (packageName package).toList

namespace Object.Sound

variable {obj : Object}

theorem mono (h : obj.Sound V known) (hknown : ∀ w, known w → known' w) : obj.Sound V known' :=
  ⟨h.name.mono hknown, fun p hp => (h.package p hp).mono hknown,
    fun hescaping => (h.unboxed hescaping).mono hknown, h.quiet⟩

theorem emits_package {p : String} (h : V.name p) : Emits V known true (p ++ ".") := by
  rw [Emits, String.toList_append]
  exact .package h

/-- A qualified name has a dot in between. -/
theorem emits_qualified {p name : String} (hp : Emits V known true (p ++ "."))
    (hname : Emits V known true name) : Emits V known true (p ++ "." ++ name) := by
  have hlast : (p ++ ".").toList.getLast?.any isNameChar = false := by
    rw [String.toList_append]
    simp [List.getLast?_append]
    rfl
  rw [Emits, String.toList_append (s := p ++ ".")]
  exact .append hp hname (apart_of_last hlast _)

/-- An entity of the program, with names of its vocabulary. -/
theorem of_name (hname : V.name obj.name)
    (hpackage : ∀ package, obj.package = some package → V.name (packageName package)) :
    obj.Sound V known :=
  ⟨.name (V.safe hname) (isBinder_safeName _), fun p hp => emits_package (hpackage p hp),
    fun _ => .box hname,
    fun hstrict => ⟨V.quiet hstrict hname, fun p hp => V.quiet hstrict (hpackage p hp)⟩⟩

/-- An entity that lowering made for itself. -/
theorem of_local (hname : Emits V known true (safeName obj.name))
    (hquiet : IsQuiet obj.name.toList) (hpackage : obj.package = none)
    (hescaping : obj.escaping = false) : obj.Sound V known where
  name := hname
  package p hp := by simp [hpackage] at hp
  unboxed h := by simp [hescaping] at h
  quiet _ := ⟨hquiet, fun p hp => by simp [hpackage] at hp⟩

/-- The name of an object is that of its package and its own. -/
theorem qualifiedName (h : obj.Sound V known) (config : Config) :
    Emits V known true (GoLua.qualifiedName config obj) := by
  unfold GoLua.qualifiedName
  split
  · exact h.name
  · next package hpackage =>
    split
    · exact h.name
    · exact emits_qualified (h.package package hpackage) h.name

/-- An object in a box is read at the box. -/
theorem objectName (h : obj.Sound V known) (config : Config) :
    Emits V known true (GoLua.objectName config obj) := by
  unfold GoLua.objectName
  split
  · exact emits_joined [.put (h.qualifiedName config), .text "[0]"] rfl rfl
  · exact h.qualifiedName config

/-- A name of an entity is quiet, with what is put in front of it and behind it. -/
theorem isQuiet_objectName (h : obj.Sound V known) (hstrict : V.strict) (config : Config) :
    IsQuiet (GoLua.objectName config obj).toList := by
  obtain ⟨hname, hpackage⟩ := h.quiet hstrict
  -- A keyword gets an underscore, a package a dot, and a box an index: none of them is a quote.
  have hsafe : IsQuiet (safeName obj.name).toList := by
    unfold safeName
    split
    · rw [String.toList_append]
      exact hname.append (by decide)
    · exact hname
  have hqualified : IsQuiet (GoLua.qualifiedName config obj).toList := by
    unfold GoLua.qualifiedName
    split
    · exact hsafe
    · next package heq =>
      split
      · exact hsafe
      · rw [String.toList_append, String.toList_append]
        exact ((hpackage package heq).append (by decide)).append hsafe
  unfold GoLua.objectName
  split
  · rw [String.toList_append]
    exact hqualified.append (by decide)
  · exact hqualified

/-- The index that a box was given is taken off again. -/
theorem dropBoxIndex_append (name : String) : dropBoxIndex (name ++ "[0]") = name := by
  have hchars : (name ++ "[0]").toList.reverse = ']' :: '0' :: '[' :: name.toList.reverse := by
    simp [String.toList_append]
  rw [dropBoxIndex, hchars]
  simp

/-- An index belongs to the name behind the dot, if there is one. -/
theorem dropBoxIndex_qualified (package name : String) :
    dropBoxIndex (package ++ "." ++ name) = package ++ "." ++ dropBoxIndex name := by
  have hchars : (package ++ "." ++ name).toList.reverse =
      name.toList.reverse ++ '.' :: package.toList.reverse := by
    simp [String.toList_append]
  rw [dropBoxIndex, dropBoxIndex, hchars]
  split
  · next r hr =>
    split
    · next r' hr' =>
      rw [hr'] at hr
      obtain rfl : r' ++ '.' :: package.toList.reverse = r := by simpa using hr
      simp [← String.toList_inj, String.toList_append]
    · next hnone =>
      -- The three characters of an index do not reach over the dot.
      exfalso
      match hrev : name.toList.reverse with
      | [] => simp [hrev] at hr
      | [a] => simp [hrev] at hr
      | [a, b] => simp [hrev] at hr
      | a :: b :: c :: r' =>
        rw [hrev] at hr
        simp only [List.cons_append, List.cons.injEq] at hr
        obtain ⟨rfl, rfl, rfl, -⟩ := hr
        exact hnone r' hrev
  · next hnone =>
    split
    · next r' hr' => exact absurd (by rw [hr']; rfl) (hnone (r' ++ '.' :: package.toList.reverse))
    · rfl

/-- The name of a box is that of the object without the index. -/
theorem boxName (h : obj.Sound V known) (hescaping : obj.escaping) (config : Config) :
    Emits V known true (GoLua.boxName config obj) := by
  -- The index is cut off again, whether there is a package in front or not.
  unfold GoLua.boxName GoLua.objectName
  split
  · rw [dropBoxIndex_append]
    exact h.qualifiedName config
  · unfold GoLua.qualifiedName
    split
    · exact h.unboxed hescaping
    · next package hpackage =>
      split
      · exact h.unboxed hescaping
      · rw [dropBoxIndex_qualified]
        exact emits_qualified (h.package package hpackage) (h.unboxed hescaping)

end Object.Sound

/-! ### Operators -/

theorem emits_luaToken (op : BinaryOp) : Emits V known false op.luaToken := by
  have hflat (token : String) (h : scan {} (token.toList.map .char) = some true) :
      Emits V known false token := (emits_text h).loose
  cases op with
  | andNot => exact emits_text rfl
  | _ => exact hflat _ rfl

/-! ### Functions that are made on the spot -/

/-- The head of a function without parameters. -/
theorem emits_thunk : Emits V known true "function()" :=
  .thunk

/-- The head of a function that takes a generated name. -/
theorem emits_parameter {x : String} (h : isGenerated x.toList) (hx : Emits V known true x) :
    Emits V known true ("function(" ++ x ++ ")") := by
  rw [Emits, String.toList_append, String.toList_append]
  exact .parameter h hx

theorem emits_declaration {x : String} (h : isGenerated x.toList) (hx : Emits V known true x) :
    Emits V known false ("local " ++ x) := by
  rw [Emits, String.toList_append]
  exact .declaration h hx

/-- The head of the setter of an accessor. -/
theorem emits_setterHead : Emits V known true "function(_v)" :=
  emits_parameter (x := "_v") rfl (emits_text rfl)

theorem emits_accessorOf {place : String} (h : Emits V known flat place) :
    Emits V known true (accessorOf place) :=
  emits_joined [.text Support.newAccessor, .text "(", .put emits_thunk, .text " return ", .put h.loose,
    .text " end, ", .put emits_setterHead, .text " ", .put h.loose, .text " = _v end)"] rfl (by
      simp [accessorOf, joined, Part.string, ← String.toList_inj])

theorem emits_cachedAccessor {cache place : String} (hcache : Emits V known true cache)
    (hplace : Emits V known flat place) : Emits V known true (cachedAccessor cache place) :=
  emits_joined [.text "(", .put hcache, .text " or (", .put emits_thunk, .text " ", .put hcache,
    .text " = ", .put (emits_accessorOf hplace), .text "; return ", .put hcache, .text " end)())"] rfl
    (by simp [cachedAccessor, joined, Part.string, ← String.toList_inj])

/-- A retyped accessor declares the pointer, and takes a parameter for what is set. -/
theorem emits_retypedAccessor {pointer source getter parameter setter : String}
    (hlocal : isGenerated pointer.toList) (htaken : isGenerated parameter.toList)
    (hpointer : Emits V known true pointer) (hsource : Emits V known false source)
    (hgetter : Emits V known false getter) (hparameter : Emits V known true parameter)
    (hsetter : Emits V known false setter) :
    Emits V known true (retypedAccessor pointer source getter parameter setter) := by
  have hget : Emits V known false ("function() return " ++ getter ++ " end") :=
    emits_joined [.put emits_thunk, .text " return ", .put hgetter, .text " end"] rfl
      (by simp [joined, Part.string])
  have hset : Emits V known false
      ("function(" ++ parameter ++ ") " ++ pointer ++ ".set(" ++ setter ++ ") end") :=
    emits_joined [.put (emits_parameter htaken hparameter), .text " ", .put hpointer, .text ".set(",
      .put hsetter, .text ") end"] rfl (by simp [joined, Part.string, ← String.toList_inj])
  exact emits_joined [.text "(", .put emits_thunk, .text " ", .put (emits_declaration hlocal hpointer),
    .text " = ", .put hsource, .text "; return ", .text Support.newAccessor, .text "(", .put hget,
    .text ", ", .put hset, .text ") end)()"] rfl
    (by delta retypedAccessor; simp [joined, Part.string, ← String.toList_inj])

/-- The names that a set is made of are those of the list. -/
theorem mem_names_ofList {names : List String} {name : String}
    (h : name ∈ (NameSet.ofList names).names) : name ∈ names := by
  -- A set of names holds what was inserted, by induction on the names.
  have hfold (names : List String) (s : NameSet) (h : name ∈ (names.foldl NameSet.insert s).names) :
      name ∈ s.names ∨ name ∈ names := by
    induction names generalizing s with
    | nil => exact .inl h
    | cons n names ih =>
      rcases ih (s.insert n) h with h | h
      · rcases NameSet.mem_place.mp h with rfl | h
        · exact .inr (by simp)
        · exact .inl h
      · exact .inr (by simp [h])
  rcases hfold names .empty h with h | h
  · cases h
  · exact h

/-- A closure takes the names it captures twice, as parameters and as arguments. -/
theorem emits_closureText {function : FunctionText} (hcode : V.code function.code)
    (hcaptured : ∀ name ∈ function.captured, V.name name) :
    Emits V known true (closureText function) := by
  unfold closureText
  split
  · exact emits_joined [.text "(", .put (.code hcode), .text ")"] rfl rfl
  · exact .closure hcode fun name hname => hcaptured name (mem_names_ofList hname)

theorem emits_propertyIndex {key : String} (h : Emits V known flat key) :
    Emits V known true (propertyIndex key) :=
  emits_joined [.text "[", .text Support.externalize, .text "(", .put h.loose,
    .text ", \"string\")]"] rfl rfl

/-- A text inside a function that declares locals first. -/
theorem emits_withLocals {bindings : List Template.LocalBinding} {body : String}
    (hbindings : ∀ b ∈ bindings, isGenerated b.name.toList ∧ Emits V known true b.name ∧
      Emits V known false b.value)
    (hbody : Emits V known flat body) : Emits V known true (Template.withLocals bindings body) := by
  -- Each binding is a declaration, and they are joined by semicolons.
  have hone : ∀ b ∈ bindings, Emits V known false ("local " ++ b.name ++ " = " ++ b.value) := by
    intro b hb
    obtain ⟨hlocal, hname, hvalue⟩ := hbindings b hb
    exact emits_joined [.put (emits_declaration hlocal hname), .text " = ", .put hvalue] rfl rfl
  have hall : Emits V known false
      ("; ".intercalate (bindings.map fun b => "local " ++ b.name ++ " = " ++ b.value)) :=
    intercalate_induction (P := Emits V known false) (.exposed (.word rfl rfl))
      (fun _ _ hs ht => emits_joined [.put hs, .text "; ", .put ht] rfl rfl)
      (List.forall_mem_map.mpr hone)
  exact emits_joined [.text "(", .put emits_thunk, .text " ", .put hall, .text "; return ",
    .put hbody.loose, .text " end)()"] rfl
    (by simp [Template.withLocals, joined, Part.string])

end

end GoLua
