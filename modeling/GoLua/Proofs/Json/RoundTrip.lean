import GoLua.Config.Json
import GoLua.Proofs.Json.Expr
import GoLua.Proofs.Json.Facts

/-!
# Data files are read back

Facts, expression trees and configurations are read back from the texts that are written for them
(`dataFiles_readBack`): in any lawful format and any layout, whatever members are left out that have
their default, as long as nothing in them is nested deeper than the format allows. A configuration
never is. Other data are refused if they are too deep, though they were written
(`parseIn_printIn_behindPointers`). Data files have a lawful format (`Json.Format.data_lawful`).
-/

namespace GoLua

open Json

variable (stable : Double → Prop)

/-! ### Configurations -/

namespace NameSet

/-- A name after all others is put at the end. -/
theorem place_of_lt {name : String} {ms : List String} (h : ∀ m ∈ ms, m < name) :
    place name ms = ms ++ [name] := by
  induction ms with
  | nil => rfl
  | cons m ms ih =>
    rw [List.forall_mem_cons] at h
    have hne : name ≠ m := fun heq => String.lt_irrefl name (by rw [heq] at h ⊢; exact h.1)
    rw [place, if_neg (fun hlt => String.lt_irrefl m (String.lt_trans h.1 hlt)), if_neg hne,
      ih h.2]
    rfl

/-- Names in ascending order are put into a set in their order. -/
theorem names_foldl_insert (s : NameSet) (names : List String)
    (h : (s.names ++ names).Pairwise (· < ·)) :
    (names.foldl insert s).names = s.names ++ names := by
  induction names generalizing s with
  | nil => simp
  | cons name names ih =>
    have hlast : ∀ m ∈ s.names, m < name := fun m hm =>
      (List.pairwise_append.mp h).2.2 m hm name List.mem_cons_self
    have hnames : (s.insert name).names = s.names ++ [name] := place_of_lt hlast
    rw [List.foldl_cons, ih _ (by rw [hnames]; simpa using h), hnames]
    simp

/-- A set is the set of its names. -/
theorem ofList_names (s : NameSet) : ofList s.names = s := by
  have hnames : (ofList s.names).names = s.names := names_foldl_insert .empty s.names s.ascending
  generalize ofList s.names = t at hnames
  obtain ⟨ms, ht⟩ := t
  obtain ⟨ns, hs⟩ := s
  cases hnames
  rfl

/-- A set that may be missing is empty. -/
theorem empty_eq {key : String} (s : NameSet) (hkey : defaultOf? key = some (.array []))
    (h : defaultOf? key = some (.array (s.names.map .string))) : .empty = s := by
  rw [hkey] at h
  obtain ⟨names, hs⟩ := s
  cases names with
  | nil => rfl
  | cons name names => cases h

end NameSet

/-- The host bridge is read back from its form. -/
theorem HostBridge.isForm_toJson (h : HostBridge) :
    IsForm stable HostBridge.ofJson? h.toJson h := by
  refine ⟨.member rfl (.string h.package) (.member rfl (.string h.objectType) .noMembers),
    fun hj => ?_⟩
  -- The package of an object may be missing; that of a bridge is a string, and is always there.
  have hpackage := (hj.holds "package" _ rfl).required? (by rintro ⟨⟩) (isForm_string stable h.package)
  have hobjectType := (hj.holds "object_type" _ rfl).required? (noDefault rfl)
    (isForm_string stable h.objectType)
  rw [HostBridge.ofJson?]
  simp [hpackage, hobjectType]

namespace Config

/-- A configuration is read back from its form. -/
theorem isForm_toJson (c : Config) : IsForm stable Config.ofJson? c.toJson c := by
  have hnames : IsForm stable (fun v => (v.list? string?).map NameSet.ofList)
      (.array (c.boxedScalars.names.map .string)) c.boxedScalars := by
    have hlist := isForm_listMap fun s (_ : s ∈ c.boxedScalars.names) => isForm_string stable s
    refine ⟨hlist.isWritten, fun hj => ?_⟩
    rw [hlist.decode_eq hj, Option.map_some, NameSet.ofList_names]
  have hhost : ∀ h ∈ c.host, IsForm stable HostBridge.ofJson? h.toJson h :=
    fun h _ => h.isForm_toJson stable
  have hne : ∀ h ∈ c.host, h.toJson ≠ .null := by rintro _ _ ⟨⟩
  refine ⟨.member rfl hnames.isWritten (.member rfl (isForm_ofOption hne hhost).isWritten
    (.member rfl (.string c.currentPackage) .noMembers)), fun hj => ?_⟩
  -- All three members have defaults, which is what an empty configuration leaves out.
  have hboxedScalars := (hj.holds "boxed_scalars" _ rfl).withDefault? .empty hnames
    (c.boxedScalars.empty_eq rfl)
  have hhost := (hj.holds "host" _ rfl).optional? rfl hne hhost
  have hcurrentPackage := (hj.holds "current_package" _ rfl).withDefault? "main"
    (isForm_string stable c.currentPackage) fun heq => Json.string.inj (Option.some.inj heq)
  obtain ⟨ns, rfl, _⟩ := hj.of_object
  rw [Config.ofJson?]
  simp [isObject, hboxedScalars, hhost, hcurrentPackage]

theorem itemsNesting_strings (names : List String) : itemsNesting (names.map .string) = 0 := by
  induction names with
  | nil => rfl
  | cons name names ih => rw [List.map_cons, itemsNesting, ih]; rfl

/-- The form of a configuration is nested no deeper than its host and its names. -/
theorem nesting_toJson_le (c : Config) : c.toJson.nesting ≤ 2 := by
  have hhost : (Json.ofOption HostBridge.toJson c.host).nesting ≤ 1 := by
    cases c.host with
    | none => exact Nat.zero_le _
    | some h => exact Nat.le_refl _
  have hnames : (Json.array (c.boxedScalars.names.map .string)).nesting = 1 := by
    rw [nesting, itemsNesting_strings]
  refine Nat.succ_le_succ (Nat.max_le.mpr ⟨Nat.le_of_eq hnames, Nat.max_le.mpr ⟨hhost, ?_⟩⟩)
  exact Nat.zero_le _

end Config

/-! ### What is nested too deep -/

/-- A type behind a number of pointers. -/
def pointers : Nat → GoType → GoType
  | 0, t => t
  | n + 1, t => .pointer (pointers n t)

/-- Pointers to a type that fits do fit. -/
theorem fits_pointers {t : GoType} (h : t.fits) (n : Nat) : (pointers n t).fits := by
  induction n with
  | zero => exact h
  | succ n ih => exact ih

theorem ofJson?_unreadable : GoType.ofJson? .unreadable = none := by
  rw [GoType.ofJson?]
  rfl

/-- A type that is cut off outright is not read. -/
theorem ofJson?_cut_zero (t : GoType) : GoType.ofJson? (t.toJson.cut 0) = none := by
  have hcut : t.toJson.cut 0 = .unreadable := by cases t <;> rfl
  rw [hcut, ofJson?_unreadable]

/-- Every pointer takes two containers, one for its tag and one for its part. -/
theorem ofJson?_cut_pointers {n depth : Nat} {t : GoType} (h : depth ≤ 2 * n) :
    GoType.ofJson? ((pointers n t).toJson.cut depth) = none := by
  -- Two levels of the text are one pointer, so the induction takes two levels at a time.
  induction n generalizing depth with
  | zero =>
    obtain rfl : depth = 0 := Nat.le_zero.mp h
    exact ofJson?_cut_zero _
  | succ n ih =>
    rcases depth with _ | _ | depth
    · exact ofJson?_cut_zero _
    · -- The tag is still read, but not its content.
      have hcut : (pointers (n + 1) t).toJson.cut 1 = .variant "Pointer" .unreadable := rfl
      rw [hcut, GoType.ofJson?]
      rfl
    · have hcut : (pointers (n + 1) t).toJson.cut (depth + 2) =
          .variant "Pointer" (.object [("elem", (pointers n t).toJson.cut depth)]) := rfl
      have hpart : GoType.ofJson? ((pointers n t).toJson.cut depth) = none := ih (by omega)
      generalize (pointers n t).toJson.cut depth = part at hcut hpart
      let member : Key × Json := ("elem", part)
      have hmember : [member].filter (·.1.text == "elem") = [member] := rfl
      obtain ⟨hsmaller, hfind⟩ := find_eq_one hmember
      have hget : (Json.object [member]).get? "elem" = some ⟨part, hsmaller⟩ := by
        rw [Json.get?, hfind]
      rw [hcut, GoType.ofJson?]
      simp [Json.variant, Json.variant?, hget, hpart, member]

/-- Each pointer nests two levels: the variant, and the object inside of it. -/
theorem nesting_pointers (n : Nat) (t : GoType) :
    (pointers n t).toJson.nesting = 2 * n + t.toJson.nesting := by
  induction n with
  | zero => rw [pointers, Nat.mul_zero, Nat.zero_add]
  | succ n ih =>
    rw [pointers, GoType.toJson]
    simp only [Json.variant, nesting, membersNesting, memberNesting, ih, Nat.max_zero]
    omega

/-- The facts about a single node, whose type is behind a number of pointers. -/
def Facts.behindPointers (n : Nat) : Facts :=
  { types := NodeTable.empty.insert 0 (pointers n (.basic .int)) }

theorem Facts.fits_behindPointers (n : Nat) : (Facts.behindPointers n).fits := by
  have hentry : (pointers n (.basic .int)).fits := fits_pointers rfl n
  simp [Facts.fits, Facts.behindPointers, NodeTable.insert, NodeTable.put, NodeTable.empty, hentry]

/-- The object of all the facts and the object of the types take one container each. -/
theorem Facts.nesting_behindPointers (n : Nat) :
    (Facts.behindPointers n).toJson.nesting = 2 * n + 3 := by
  have htypes : ((pointers n (.basic .int)).toJson).nesting = 2 * n + 1 := nesting_pointers n _
  simp [Facts.behindPointers, Facts.toJson, NodeTable.toJson, NodeTable.insert, NodeTable.put,
    NodeTable.empty, nesting, membersNesting, memberNesting, htypes]

/-- Without the table of the types there are no facts. -/
theorem Facts.ofJson?_of_types {members : List (Key × Json)} {types : Json}
    (hkey : members.filter (·.1.text == "types") = [(("types" : Key), types)])
    (htypes : NodeTable.ofJson? GoType.ofJson? types = none) :
    Facts.ofJson? (.object members) = none := by
  obtain ⟨_, hfind⟩ := find_eq_one hkey
  have hread : (Json.object members).withDefault? "types" .empty
      (NodeTable.ofJson? GoType.ofJson?) = none := by
    rw [withDefault?, hfind]
    exact htypes
  rw [Facts.ofJson?, hread]
  rfl

/-- **What is nested too deep is refused**, though it was written. -/
theorem parseIn_printIn_behindPointers {format : Format} (hformat : format.Lawful stable) {n : Nat}
    (h : 63 ≤ n) :
    Facts.parseIn format ((Facts.behindPointers n).printIn format) =
      .error (.config "invalid oracle table") := by
  -- The five tables stand two levels deep, so the text is cut inside the type of the one entry.
  have hform := (Facts.behindPointers n).isForm_toJson stable (Facts.fits_behindPointers n)
    (List.forall_mem_nil _)
  have hpart : GoType.ofJson? ((pointers n (.basic .int)).toJson.cut 125) = none :=
    ofJson?_cut_pointers (by omega)
  have htable : NodeTable.ofJson? GoType.ofJson?
      (.object [((toString 0 : Key), (pointers n (.basic .int)).toJson.cut 125)]) = none := by
    rw [NodeTable.ofJson?, List.mapM_cons, nodeIdOfKey?_toString (by decide), hpart]
    rfl
  have hcut : (Facts.behindPointers n).toJson.cut (125 + 2) =
      .object [("types", .object [((toString 0 : Key), (pointers n (.basic .int)).toJson.cut 125)]),
        ("constants", .object []), ("definitions", .object []), ("uses", .object []),
        ("selections", .object [])] := rfl
  have hdeep : dataDepth < (Facts.behindPointers n).toJson.nesting := by
    rw [Facts.nesting_behindPointers, dataDepth]
    omega
  rw [Facts.parseIn, Facts.printIn, hformat.cutsOff .indented hform.isWritten hdeep, dataDepth, hcut,
    Option.bind_some, Facts.ofJson?_of_types rfl htable]

/-! ### Reading back -/

/-- **Data files are read back.** Take any format that reads back what it writes down to the depth of
a data file, and has no value for what is nested deeper. In it the text of the facts about a unit is
read as the facts, and so is every text of facts, of a tree and of a configuration that makes sense,
however it is laid out and whatever members it leaves out that have their default. The doubles among
the constants are finite, and are taken to come back from their own text; numbers fit their words;
and facts and trees are nested no deeper than a data file can be. What is nested too deep is refused,
though it was written: a type behind 63 pointers is, and behind any more. -/
theorem dataFiles_readBack {format : Format} {stable : Double → Prop}
    (hformat : format.Lawful stable) {f : Facts} (hf : f.fits)
    (hfinite : ∀ x ∈ f.doubles, x.isFinite) (hstable : ∀ x ∈ f.doubles, x.isFinite → stable x)
    (hfacts : f.toJson.nesting ≤ dataDepth) {e : Expr} (he : e.fits)
    (htree : e.toJson.nesting ≤ dataDepth) {c : Config} (hc : c.validate = .ok ()) :
    (Facts.parseIn format (f.printIn format) = .ok f ∧
      ∀ layout : Layout,
        (∀ j, f.toJson.LeavesOut j → Facts.parseIn format (format.write layout j) = .ok f) ∧
        (∀ j, e.toJson.LeavesOut j →
          (format.read (format.write layout j)).bind Expr.ofJson? = some e) ∧
        ∀ j, c.toJson.LeavesOut j → Config.parseIn format (format.write layout j) = .ok c) ∧
      ∀ n, 63 ≤ n → Facts.parseIn format ((Facts.behindPointers n).printIn format) =
        .error (.config "invalid oracle table") := by
  have hf := f.isForm_toJson stable hf fun x hx => hstable x hx (hfinite x hx)
  have hparse (layout : Layout) (j : Json) (hj : f.toJson.LeavesOut j) :
      Facts.parseIn format (format.write layout j) = .ok f := by
    rw [Facts.parseIn, hf.read hformat hfacts layout hj]
  refine ⟨⟨hparse .indented _ (.same _), fun layout => ⟨hparse layout, fun j hj => ?_, ?_⟩⟩, ?_⟩
  · exact (e.isForm_toJson stable he).read hformat htree layout hj
  · intro j hj
    have hdepth : c.toJson.nesting ≤ dataDepth := Nat.le_trans c.nesting_toJson_le (by decide)
    rw [Config.parseIn, (c.isForm_toJson stable).read hformat hdepth layout hj]
    dsimp only
    rw [hc]
    rfl
  · intro n hn
    exact parseIn_printIn_behindPointers stable hformat hn

/-- One half. -/
def Double.half : Double := ⟨0x3FE0000000000000⟩

theorem readsBack_half : ReadsBack .half := by
  have htext : doubleText .half = "0.5" := by decide +kernel
  have hread : readDouble ['0'] ['5'] [] false = some .half := by decide +kernel
  rw [ReadsBack, htext]
  simp [number, unsignedNumber, hread]

/-- Facts about the nodes of `f.ratio < 0.5`. -/
def Facts.belowHalf : Facts :=
  let ratio : Field := { name := "ratio", type := .basic .float64 }
  let fraction : GoType := .named "main.Fraction" (.struct [ratio])
  let selected : Selection :=
    { kind := .fieldVal, recv := fraction, index := [0], obj := .var "ratio" ratio.type,
      type := ratio.type }
  { types := (NodeTable.empty.insert 0 fraction).insert 3 (.basic .untypedFloat)
    constants := NodeTable.empty.insert 3 (.float .half)
    uses := NodeTable.empty.insert 0 (.var "f" fraction)
    selections := NodeTable.empty.insert 2 selected }

/-- The tree of `f.ratio < 0.5`. -/
def Expr.belowHalf : Expr :=
  let node (id : NodeId) : Node := ⟨id, .point ⟨"main.go", 1, id + 1⟩⟩
  .binary (node 4) .lss (.selector (node 2) (.ident (node 0) "f") (.ident (node 1) "ratio"))
    (.basicLit (node 3) "0.5")

/-- Facts, a tree and a configuration without any member, in data files. -/
theorem dataFiles_readBack_belowHalf :
    (Facts.belowHalf.fits ∧ Facts.belowHalf.doubles = [.half] ∧ ReadsBack .half ∧
      Expr.belowHalf.fits) ∧
      Facts.parse Facts.belowHalf.print = .ok Facts.belowHalf ∧
      (parse? dataDepth Expr.belowHalf.toJson.text).bind Expr.ofJson? = some .belowHalf ∧
      Config.parse (Json.object []).text = .ok {} ∧
      Facts.parse (Facts.behindPointers 64).print = .error (.config "invalid oracle table") := by
  have hdoubles : Facts.belowHalf.doubles = [.half] := rfl
  have hreads : ∀ x ∈ Facts.belowHalf.doubles, x.isFinite → ReadsBack x := by
    rw [hdoubles, List.forall_mem_singleton]
    exact fun _ => readsBack_half
  have hfinite : ∀ x ∈ Facts.belowHalf.doubles, x.isFinite := by decide +kernel
  have hleft : (Config.toJson {}).LeavesOut (.object []) :=
    .object (.leave rfl (.leave rfl (.leave rfl .nil)))
  obtain ⟨⟨hprint, htexts⟩, hdeep⟩ := dataFiles_readBack Format.data_lawful (f := .belowHalf)
    (by decide +kernel) hfinite hreads (by decide +kernel) (e := .belowHalf) (by decide +kernel)
    (by decide +kernel) (c := {}) rfl
  have hcompact (j : Json) : Format.data.read (Format.data.write .compact j) =
      parse? dataDepth j.text := rfl
  have ⟨_, htree, hconfig⟩ := htexts .compact
  have htree := htree Expr.belowHalf.toJson (.same _)
  rw [hcompact] at htree
  exact ⟨⟨by decide +kernel, hdoubles, readsBack_half, by decide +kernel⟩, hprint,
    htree, hconfig (.object []) hleft, hdeep 64 (by decide)⟩

/-- A type behind 63 pointers fits and holds no doubles, and is not read back. -/
theorem print_notReadBack :
    (Facts.behindPointers 63).fits ∧ (Facts.behindPointers 63).doubles = [] ∧
      Facts.parse (Facts.behindPointers 63).print ≠ .ok (Facts.behindPointers 63) := by
  refine ⟨Facts.fits_behindPointers 63, rfl, ?_⟩
  have hrefused := parseIn_printIn_behindPointers ReadsBack Format.data_lawful (Nat.le_refl 63)
  rw [Facts.parse, Facts.print, hrefused]
  rintro ⟨⟩

end GoLua
