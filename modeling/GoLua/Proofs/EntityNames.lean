import GoLua.Lower.Object

/-!
# Names keep entities apart

The text by which an entity is reached is put together from its name. A reserved word gets an underscore,
an entity of another package is qualified by the last segment of the path of the package, and an escaping
variable gets the index of its box.

Each of these is there to keep names apart, and each drops something:

* what a reserved word becomes is a name that a program may have itself (`safeName_eq_iff`);
* of the path of a package, all but the last segment is forgotten (`qualifiedName_eq_iff_of_foreign`);
* the index of a box is never part of a name (`objectName_eq_iff`).

There are no other collisions: `objectName_shared_iff` says exactly when two entities of one package share
their text, and when two entities of one name from different packages do.
-/

namespace GoLua

open Lua

/-! ### Names of a program -/

/-- Whether a text has the characters of an identifier: letters, digits and underscores. Beyond ASCII it may
have any, so every identifier of a program is such a text. -/
def isIdentifierText (text : String) : Bool :=
  text.toList.all fun c => isNameChar c || 127 < c.toNat

/-- The name that a reserved word is given stands for itself as well. -/
def TakesNameOf (name word : String) : Prop :=
  isKeyword word ∧ name = word ++ "_"

instance (name word : String) : Decidable (TakesNameOf name word) :=
  inferInstanceAs (Decidable (isKeyword word ∧ name = word ++ "_"))

/-- An identifier has no bracket. -/
theorem not_mem_of_isIdentifierText {text : String} (h : isIdentifierText text) :
    ']' ∉ text.toList := fun hmem =>
  absurd (List.all_eq_true.mp h _ hmem) (by decide)

section

variable {name name' : String}

theorem safeName_of_isKeyword (h : isKeyword name) : safeName name = name ++ "_" :=
  if_pos h

theorem safeName_of_not_isKeyword (h : ¬ isKeyword name) : safeName name = name :=
  if_neg h

/-- No reserved word ends in an underscore. -/
theorem TakesNameOf.not_isKeyword (h : TakesNameOf name name') : ¬ isKeyword name := by
  -- The list is fixed, so its words are gone through.
  have hwords : ∀ word ∈ keywords, ¬ isKeyword (word ++ "_") := by decide
  obtain ⟨hword, rfl⟩ := h
  exact hwords name' (List.contains_iff_mem.mp hword)

/-- A name that takes the place of another one is spelled alike. -/
theorem TakesNameOf.safeName_eq (h : TakesNameOf name name') : safeName name = safeName name' := by
  rw [safeName_of_not_isKeyword h.not_isKeyword, safeName_of_isKeyword h.1, h.2]

/-- **Reserved words.** Two names are kept apart, unless one is what the other, a reserved word, becomes. -/
theorem safeName_eq_iff :
    safeName name = safeName name' ↔
      name = name' ∨ TakesNameOf name name' ∨ TakesNameOf name' name := by
  -- A keyword gets an underscore, so two names meet when they are alike or when one is the other
  -- with it.
  constructor
  · intro h
    by_cases hword : isKeyword name <;> by_cases hword' : isKeyword name'
    · rw [safeName_of_isKeyword hword, safeName_of_isKeyword hword'] at h
      exact .inl ((String.append_left_inj "_").mp h)
    · rw [safeName_of_isKeyword hword, safeName_of_not_isKeyword hword'] at h
      exact .inr (.inr ⟨hword, h.symm⟩)
    · rw [safeName_of_not_isKeyword hword, safeName_of_isKeyword hword'] at h
      exact .inr (.inl ⟨hword', h⟩)
    · rw [safeName_of_not_isKeyword hword, safeName_of_not_isKeyword hword'] at h
      exact .inl h
  · rintro (rfl | h | h)
    · rfl
    · exact h.safeName_eq
    · exact h.safeName_eq.symm

theorem not_mem_safeName (h : ']' ∉ name.toList) : ']' ∉ (safeName name).toList := by
  by_cases hword : isKeyword name
  · rw [safeName_of_isKeyword hword, String.toList_append, List.mem_append]
    exact fun hmem => hmem.elim h (by decide)
  · rwa [safeName_of_not_isKeyword hword]

end

/-! ### Names of entities -/

/-- Whether an entity is a variable that lives in a box. -/
def Object.inBox (obj : Object) : Bool :=
  obj.escaping && obj.kind == .var

section

variable {config : Config} {obj obj' : Object} {package package' : String}

/-- In one package, what is qualified is qualified alike. -/
theorem qualifiedName_eq_iff_of_package (h : obj.package = obj'.package) :
    qualifiedName config obj = qualifiedName config obj' ↔ safeName obj.name = safeName obj'.name := by
  unfold qualifiedName
  rw [← h]
  cases obj.package with
  | none => rfl
  | some package =>
    by_cases hcurrent : package = config.currentPackage
    · simp only [hcurrent, if_true]
    · simp only [hcurrent, if_false]
      exact String.append_right_inj _

/-- The name of another package stands in front. -/
theorem qualifiedName_of_foreign (h : obj.package = some package)
    (hforeign : package ≠ config.currentPackage) :
    qualifiedName config obj = packageName package ++ "." ++ safeName obj.name := by
  rw [qualifiedName, h]
  exact if_neg hforeign

/-- **Foreign packages.** Of two packages, it is the last segments of their paths that tell their entities
apart. -/
theorem qualifiedName_eq_iff_of_foreign (h : obj.package = some package)
    (h' : obj'.package = some package') (hforeign : package ≠ config.currentPackage)
    (hforeign' : package' ≠ config.currentPackage) (hname : obj.name = obj'.name) :
    qualifiedName config obj = qualifiedName config obj' ↔
      packageName package = packageName package' := by
  rw [qualifiedName_of_foreign h hforeign, qualifiedName_of_foreign h' hforeign', hname,
    String.append_left_inj, String.append_left_inj]

/-- The last character of a name is one of the identifier, or the dot before it. -/
theorem getLast?_qualifiedName (h : ']' ∉ obj.name.toList) :
    (qualifiedName config obj).toList.getLast? ≠ some ']' := by
  have hsafe : (safeName obj.name).toList.getLast? ≠ some ']' := fun hlast =>
    not_mem_safeName h (List.mem_of_getLast? hlast)
  unfold qualifiedName
  split
  · exact hsafe
  · split
    · exact hsafe
    · rw [String.toList_append, List.getLast?_append, String.toList_append]
      cases hlast : (safeName obj.name).toList.getLast? with
      | none => simp
      | some c => simpa [hlast] using hsafe

/-- The index of a box is no part of a name. -/
theorem qualifiedName_ne_boxed (h : ']' ∉ obj.name.toList) (text : String) :
    qualifiedName config obj ≠ text ++ "[0]" := by
  intro heq
  have hlast : (qualifiedName config obj).toList.getLast? ≠ some ']' := getLast?_qualifiedName h
  rw [heq, String.toList_append, List.getLast?_append] at hlast
  exact hlast rfl

/-- **Boxes.** Variables in boxes are told from all that is not in a box, and otherwise by their names. -/
theorem objectName_eq_iff (h : ']' ∉ obj.name.toList) (h' : ']' ∉ obj'.name.toList) :
    objectName config obj = objectName config obj' ↔
      obj.inBox = obj'.inBox ∧ qualifiedName config obj = qualifiedName config obj' := by
  have hname (o : Object) : objectName config o =
      if o.inBox then qualifiedName config o ++ "[0]" else qualifiedName config o := rfl
  rw [hname, hname]
  cases obj.inBox <;> cases obj'.inBox
  · simp
  · simpa using qualifiedName_ne_boxed h _
  · simpa using (qualifiedName_ne_boxed h' _).symm
  · simp

end

/-- **Names keep entities apart**, with two exceptions. Two entities of one package have the same text just
if they have the same name, or one of the names is what the other, a reserved word, becomes. Two entities
of one name from two packages other than the current one have the same text just if the paths of the
packages have the same last segment. In both cases a variable in a box shares no text with anything that is
in none. -/
theorem objectName_shared_iff (config : Config) {obj obj' : Object}
    (hname : isIdentifierText obj.name) (hname' : isIdentifierText obj'.name) :
    (obj.package = obj'.package →
      (objectName config obj = objectName config obj' ↔ obj.inBox = obj'.inBox ∧
        (obj.name = obj'.name ∨ TakesNameOf obj.name obj'.name ∨ TakesNameOf obj'.name obj.name))) ∧
    (∀ package package', obj.package = some package → obj'.package = some package' →
      package ≠ config.currentPackage → package' ≠ config.currentPackage → obj.name = obj'.name →
        (objectName config obj = objectName config obj' ↔
          obj.inBox = obj'.inBox ∧ packageName package = packageName package')) := by
  -- A box index can be told apart, so the names agree when the qualified names and the boxes do.
  have hiff : objectName config obj = objectName config obj' ↔
      obj.inBox = obj'.inBox ∧ qualifiedName config obj = qualifiedName config obj' :=
    objectName_eq_iff (not_mem_of_isIdentifierText hname) (not_mem_of_isIdentifierText hname')
  constructor
  · intro hpackage
    rw [hiff, qualifiedName_eq_iff_of_package hpackage, safeName_eq_iff]
  · intro package package' hpackage hpackage' hforeign hforeign' hsame
    rw [hiff, qualifiedName_eq_iff_of_foreign hpackage hpackage' hforeign hforeign' hsame]

/-- An integer that a package declares. -/
def integerOf (package name : String) : Object :=
  { Object.var name (.basic .int) with package := some package }

/-- Names that differ in one letter, beyond ASCII as well, and packages with names of their own. -/
theorem objectName_shared_iff_resume :
    objectName {} (integerOf "main" "resume") ≠ objectName {} (integerOf "main" "résumé") ∧
      objectName {} (integerOf "app/stats" "Total") ≠ objectName {} (integerOf "app/store" "Total") := by
  have hresume : isIdentifierText (integerOf "main" "resume").name := by decide
  have hresumé : isIdentifierText (integerOf "main" "résumé").name := by decide
  have hnames := (objectName_shared_iff {} hresume hresumé).1 rfl
  have htotal (package : String) : isIdentifierText (integerOf package "Total").name :=
    show isIdentifierText "Total" by decide
  have hpackages := (objectName_shared_iff {} (htotal "app/stats") (htotal "app/store")).2 _ _ rfl rfl
    (by decide) (by decide) rfl
  rw [Ne, Ne, hnames, hpackages]
  decide

/-- A variable may have the name that a reserved word is given, and two packages the same last segment. -/
theorem objectName_not_apart :
    (isIdentifierText "end" ∧ isIdentifierText "end_" ∧
      objectName {} (integerOf "main" "end") = "end_" ∧
      objectName {} (integerOf "main" "end_") = "end_") ∧
    objectName {} (integerOf "app/stats" "Total") = "stats.Total" ∧
      objectName {} (integerOf "lib/stats" "Total") = "stats.Total" := by
  decide

end GoLua
