import GoLua.Proofs.SelectionPaths
import GoLua.Proofs.Text.Forms

/-!
# Reading access chains

An access behind a value is written in two ways, with a dot or with a string in brackets, and which of
them is a matter of how the name is spelled. `accessPath?` reads both, as Lua does: behind a dot, a name
is as long as it can be; between brackets, a string ends where `stringToken?` says.

* What is written for a name is read as that name (`accessKey?_accessStep`). A name behind a dot ends
  with the next dot or bracket, which are in no name, and what is inside of a string ends nothing.
* So a chain is read as its path, to the end (`accessPath?_accessChain`), and different paths have
  different chains (`accessChain_injective`).
* The entries of a struct are written with brackets always. They are read as the same keys
  (`accessKey?_fieldEntry`), so a selector finds what a literal has stored
  (`accessChain_readBack`).
-/

namespace GoLua

namespace Lua

/-! ### Reading -/

/-- The key behind a dot, and the text behind it: all characters that may be in a name have to be one. -/
def nameKey? (cs : List Char) : Option (String × List Char) :=
  let name := String.ofList (cs.takeWhile isNameChar)
  if isName name then some (name, cs.dropWhile isNameChar) else none

/-- The key behind a bracket, and the text behind the closing one: a string, which has to be in UTF-8
like the names of fields. -/
def stringKey? (cs : List Char) : Option (String × List Char) :=
  match stringToken? cs with
  | some (bytes, ']' :: rest) => (String.fromUTF8? ⟨bytes.toArray⟩).map fun name => (name, rest)
  | _ => none

/-- The key of the access that a text begins with, and the text behind it. -/
def accessKey? : List Char → Option (String × List Char)
  | '.' :: cs => nameKey? cs
  | '[' :: cs => stringKey? cs
  | _ => none

section

variable {cs rest : List Char} {bytes : List UInt8} {name : String}

theorem suffix_of_stringRest {delimiter : Char} (h : stringRest delimiter cs = some (bytes, rest)) :
    rest <:+ cs := by
  -- Along the recursion of the reader; an escape and a plain character both leave a suffix.
  fun_induction stringRest delimiter cs generalizing bytes with
  | case1 => cases h
  | case2 cs =>
    obtain ⟨-, rfl⟩ := Prod.mk.inj (Option.some.inj h)
    exact List.suffix_cons _ _
  | case3 => cases h
  | case4 => cases h
  | case5 cs taken left hescape _ _ _ ih =>
    obtain ⟨⟨later, rest'⟩, hlater, hpair⟩ := Option.map_eq_some_iff.mp h
    obtain ⟨-, rfl⟩ := Prod.mk.inj hpair
    exact ((ih hlater).trans (suffix_of_escape? hescape)).trans (List.suffix_cons _ _)
  | case6 c cs _ _ _ ih =>
    obtain ⟨⟨later, rest'⟩, hlater, hpair⟩ := Option.map_eq_some_iff.mp h
    obtain ⟨-, rfl⟩ := Prod.mk.inj hpair
    exact (ih hlater).trans (List.suffix_cons _ _)

theorem suffix_of_stringToken? (h : stringToken? cs = some (bytes, rest)) : rest <:+ cs := by
  unfold stringToken? at h
  split at h
  · split at h
    · exact (suffix_of_stringRest h).trans (List.suffix_cons _ _)
    · cases h
  · cases h

/-- An access takes something, so reading on comes to an end. -/
theorem length_lt_of_accessKey? (h : accessKey? cs = some (name, rest)) :
    rest.length < cs.length := by
  -- A name takes its dot, and a string its bracket.
  unfold accessKey? at h
  split at h
  · next cs =>
    unfold nameKey? at h
    dsimp only at h
    split at h
    · obtain ⟨-, rfl⟩ := Prod.mk.inj (Option.some.inj h)
      have hle := (List.dropWhile_suffix isNameChar (l := cs)).length_le
      exact Nat.lt_succ_of_le hle
    · cases h
  · next cs =>
    unfold stringKey? at h
    split at h
    · next bytes left hstring =>
      obtain ⟨found, -, hpair⟩ := Option.map_eq_some_iff.mp h
      obtain ⟨-, rfl⟩ := Prod.mk.inj hpair
      have hle := (suffix_of_stringToken? hstring).length_le
      rw [List.length_cons] at hle
      exact Nat.lt_succ_of_lt hle
    · cases h
  · cases h

end

/-- **Reading a chain.** The keys of the accesses that a text consists of. -/
def accessPath? : List Char → Option (List String)
  | [] => some []
  | c :: cs =>
    match _h : accessKey? (c :: cs) with
    | none => none
    | some (key, rest) => (accessPath? rest).map (key :: ·)
termination_by cs => cs.length
decreasing_by exact length_lt_of_accessKey? _h

/-! ### Reading back -/

section

variable {rest : List Char} {name : String}

/-- A name is read up to a character that is in none. -/
theorem nameKey?_append (h : isName name) (hrest : rest.head?.any isNameChar = false) :
    nameKey? (name.toList ++ rest) = some (name, rest) := by
  obtain ⟨c, cs, hname, -, hall, -⟩ := toList_of_isName h
  rw [← hname, List.all_eq_true] at hall
  have hstop : rest.takeWhile isNameChar = [] ∧ rest.dropWhile isNameChar = rest := by
    cases rest with
    | nil => exact ⟨rfl, rfl⟩
    | cons d ds =>
      have hd : isNameChar d = false := hrest
      simp [hd]
  simp only [nameKey?, List.takeWhile_append_of_pos hall, List.dropWhile_append_of_pos hall,
    hstop.1, hstop.2, List.append_nil, String.ofList_toList, h, if_true]

/-- A literal between brackets is read up to the closing one, whatever follows. -/
theorem stringKey?_quote (name : String) (rest : List Char) :
    stringKey? ((quote name).toList ++ ']' :: rest) = some (name, rest) := by
  have hbytes : String.fromUTF8? name.toUTF8 = some name := dif_pos name.isValidUTF8
  rw [stringKey?, quote, stringToken?_quoteBytes]
  change (String.fromUTF8? name.toUTF8).map (fun name => (name, rest)) = _
  rw [hbytes, Option.map_some]

/-- **One access.** What is written for a name is read as the name, if no name goes on behind it. -/
theorem accessKey?_accessStep (name : String) (hrest : rest.head?.any isNameChar = false) :
    accessKey? ((accessStep name).toList ++ rest) = some (name, rest) := by
  -- A name that can stand behind a dot does; any other is quoted.
  unfold accessStep
  split
  · next hname =>
    have htext : ("." ++ name).toList ++ rest = '.' :: (name.toList ++ rest) := by
      simp [String.toList_append]
    rw [htext]
    exact nameKey?_append hname hrest
  · have htext : ("[" ++ quote name ++ "]").toList ++ rest =
        '[' :: ((quote name).toList ++ ']' :: rest) := by
      simp [String.toList_append]
    rw [htext]
    exact stringKey?_quote name rest

/-- A path goes on behind its first key. -/
theorem accessPath?_of_accessKey? {cs : List Char} (h : accessKey? cs = some (name, rest)) :
    accessPath? cs = (accessPath? rest).map (name :: ·) := by
  cases cs with
  | nil => cases h
  | cons c cs =>
    rw [accessPath?]
    split
    · next hnone =>
      rw [h] at hnone
      cases hnone
    · next key left hsome =>
      rw [h] at hsome
      obtain ⟨rfl, rfl⟩ := Prod.mk.inj (Option.some.inj hsome)
      rfl

end

/-- **Chains.** A chain is read as its path. -/
theorem accessPath?_accessChain (names : List String) :
    accessPath? (accessChain names).toList = some names := by
  induction names with
  | nil => rw [accessChain, List.map_nil, String.join_nil, String.toList_empty, accessPath?]
  | cons name names ih =>
    have hcons : accessChain (name :: names) = accessStep name ++ accessChain names := by
      rw [accessChain, List.map_cons, String.join_cons, accessChain]
    -- What follows is another access or nothing, so the first name ends here.
    rw [hcons, String.toList_append,
      accessPath?_of_accessKey? (accessKey?_accessStep name (head?_accessChain names)), ih,
      Option.map_some]

/-- Two chains of names are different texts. -/
theorem accessChain_injective : Function.Injective accessChain := by
  intro names names' h
  have hread := accessPath?_accessChain names
  rw [h, accessPath?_accessChain names'] at hread
  exact (Option.some.inj hread).symm

/-! ### Entries of structs -/

/-- The text that stores a field of a struct. -/
def fieldEntry (name value : String) : String :=
  "[" ++ quote name ++ "]=" ++ value

theorem structText_eq_entries (type : GoType) (names values : List String) :
    structText type names values = callText Support.newInstance
      [quote type.text,
        Text.braced (Text.commaSeparated (List.zipWith fieldEntry names values))] :=
  rfl

/-- An entry begins with the access that reads it. -/
theorem accessKey?_fieldEntry (name value : String) (more : List Char) :
    accessKey? ((fieldEntry name value).toList ++ more) =
      some (name, '=' :: (value.toList ++ more)) := by
  have htext : (fieldEntry name value).toList ++ more =
      '[' :: ((quote name).toList ++ ']' :: '=' :: (value.toList ++ more)) := by
    simp [fieldEntry, String.toList_append]
  rw [htext]
  exact stringKey?_quote name _

/-- **Chains of accesses.** Whatever the names are, the chain of a path is read as the path and nothing
is left of it, so different paths have different chains. A selector of a field begins with the key
under which a literal of the struct stores that field, whichever of the two spellings each of them has. -/
theorem accessChain_readBack :
    (∀ names, accessPath? (accessChain names).toList = some names) ∧
    Function.Injective accessChain ∧
    ∀ config (type : GoType) fields i rest path, type.throughPointer.fields? = some fields →
      resolvePath config type (i :: rest) = .ok path → ∃ key onward,
        accessPath? (accessChain path.names).toList = some (key :: onward) ∧
        ∀ values value, values[i]? = some value → ∃ entries : List String,
          structText type.throughPointer (fields.map Field.name) values =
            callText Support.newInstance [quote type.throughPointer.text,
              Text.braced (Text.commaSeparated entries)] ∧
          ∃ entry, entries[i]? = some entry ∧ ∀ more,
            accessKey? (entry.toList ++ more) = some (key, '=' :: (value.toList ++ more)) := by
  refine ⟨accessPath?_accessChain, accessChain_injective, ?_⟩
  -- What is stored under a key is the entry of the field, since names and values keep their places.
  intro config type fields i rest path hfields hpath
  obtain ⟨found, field, onward, hfound, hfield, -, rfl⟩ := resolvePath_cons_eq_ok_iff.mp hpath
  obtain rfl : fields = found := Option.some.inj (hfields.symm.trans hfound)
  refine ⟨field.name, onward.names, accessPath?_accessChain _, fun values value hvalue => ?_⟩
  refine ⟨_, structText_eq_entries _ _ _, fieldEntry field.name value, ?_,
    accessKey?_fieldEntry field.name value⟩
  simp [List.getElem?_zipWith, hfield, hvalue]

/-- Fields with names that cannot be written behind a dot -/
def bracketedFields : List Field :=
  [{ name := "a.b", type := .basic .int }, { name := "nil", type := .basic .int }]

/-- The second field is read where the second value is stored. -/
theorem accessChain_readBack_bracketedFields :
    (resolvePath {} (.struct bracketedFields) [1]).map FieldPath.names = .ok ["nil"] ∧
      accessPath? "[\"a.b\"][\"nil\"].c".toList = some ["a.b", "nil", "c"] ∧
      ∃ entries : List String,
        structText (.struct bracketedFields) ["a.b", "nil"] ["6", "7"] =
          callText Support.newInstance [quote (GoType.struct bracketedFields).text,
            Text.braced (Text.commaSeparated entries)] ∧
        ∃ entry, entries[1]? = some entry ∧
          accessKey? entry.toList = some ("nil", "=7".toList) := by
  obtain ⟨hread, -, hfields⟩ := accessChain_readBack
  have hpath : resolvePath {} (.struct bracketedFields) [1] =
      .ok { names := ["nil"], type := .basic .int, host := none } := rfl
  refine ⟨rfl, hread ["a.b", "nil", "c"], ?_⟩
  obtain ⟨key, onward, hchain, hstored⟩ :=
    hfields {} (.struct bracketedFields) bracketedFields 1 [] _ rfl hpath
  obtain ⟨rfl, -⟩ := List.cons_eq_cons.mp (Option.some.inj ((hread ["nil"]).symm.trans hchain))
  obtain ⟨entries, htext, entry, hentry, hkey⟩ := hstored ["6", "7"] "7" rfl
  have hkey := hkey []
  rw [List.append_nil] at hkey
  exact ⟨entries, htext, entry, hentry, hkey⟩

end Lua

end GoLua
