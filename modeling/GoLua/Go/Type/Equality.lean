import GoLua.Go.Type

/-!
# Equality of types

Types are trees, so two of them can be compared node by node. `GoType.same` does, and
`GoType.same_iff` says that it decides equality; the instances of `DecidableEq` follow. This is
equality as data, where a declared type is compared with its definition and a field with its host
tag; which types Go takes for one another is `GoType.identical`, a coarser relation.
-/

namespace GoLua

mutual

/-- Whether two types are the same tree. -/
def GoType.same : GoType → GoType → Bool
  | .basic j, .basic k => j == k
  | .array s m, .array t n => m == n && s.same t
  | .slice s, .slice t => s.same t
  | .map j s, .map k t => j.same k && s.same t
  | .struct fs, .struct gs => sameFields fs gs
  | .pointer s, .pointer t => s.same t
  | .interface ms, .interface ns => ms == ns
  | .func s, .func t => s.same t
  | .chan s, .chan t => s.same t
  | .named m s, .named n t => m == n && s.same t
  | .tuple ss, .tuple ts => sameTypes ss ts
  | _, _ => false
termination_by structural s => s

/-- Whether two lists of types are the same, place by place. -/
def sameTypes : List GoType → List GoType → Bool
  | [], [] => true
  | s :: ss, t :: ts => s.same t && sameTypes ss ts
  | _, _ => false
termination_by structural ss => ss

/-- Whether a method's receivers are both absent or both the same. -/
def sameReceiver : Option GoType → Option GoType → Bool
  | none, none => true
  | some s, some t => s.same t
  | _, _ => false
termination_by structural s => s

/-- Whether two lists of fields are the same, place by place. -/
def sameFields : List Field → List Field → Bool
  | [], [] => true
  | f :: fs, g :: gs => f.same g && sameFields fs gs
  | _, _ => false
termination_by structural fs => fs

/-- Whether two fields are the same. -/
def Field.same : Field → Field → Bool
  | ⟨m, s, d, h⟩, ⟨n, t, e, i⟩ => m == n && s.same t && d == e && h == i
termination_by structural f => f

/-- Whether two signatures are the same. -/
def Signature.same : Signature → Signature → Bool
  | ⟨q, ps, qs, v⟩, ⟨r, rs, ss, w⟩ =>
    sameReceiver q r && sameTypes ps rs && sameTypes qs ss && v == w
termination_by structural s => s

end

mutual

theorem GoType.same_iff (s t : GoType) : s.same t = true ↔ s = t := by
  cases s with
  | basic => cases t <;> simp [GoType.same]
  | array s n => cases t <;> simp [GoType.same, GoType.same_iff s, and_comm]
  | slice s => cases t <;> simp [GoType.same, GoType.same_iff s]
  | map k s => cases t <;> simp [GoType.same, GoType.same_iff k, GoType.same_iff s]
  | struct fs => cases t <;> simp [GoType.same, sameFields_iff fs]
  | pointer s => cases t <;> simp [GoType.same, GoType.same_iff s]
  | interface => cases t <;> simp [GoType.same]
  | func s => cases t <;> simp [GoType.same, Signature.same_iff s]
  | chan s => cases t <;> simp [GoType.same, GoType.same_iff s]
  | named n s => cases t <;> simp [GoType.same, GoType.same_iff s]
  | tuple ss => cases t <;> simp [GoType.same, sameTypes_iff ss]
termination_by structural s

theorem sameTypes_iff (ss ts : List GoType) : sameTypes ss ts = true ↔ ss = ts := by
  cases ss with
  | nil => cases ts <;> simp [sameTypes]
  | cons s ss => cases ts <;> simp [sameTypes, GoType.same_iff s, sameTypes_iff ss]
termination_by structural ss

theorem sameReceiver_iff (s t : Option GoType) : sameReceiver s t = true ↔ s = t := by
  cases s with
  | none => cases t <;> simp [sameReceiver]
  | some s => cases t <;> simp [sameReceiver, GoType.same_iff s]
termination_by structural s

theorem sameFields_iff (fs gs : List Field) : sameFields fs gs = true ↔ fs = gs := by
  cases fs with
  | nil => cases gs <;> simp [sameFields]
  | cons f fs => cases gs <;> simp [sameFields, Field.same_iff f, sameFields_iff fs]
termination_by structural fs

theorem Field.same_iff (f g : Field) : f.same g = true ↔ f = g := by
  cases f with
  | mk m s d h => cases g; simp [Field.same, GoType.same_iff s, and_assoc]
termination_by structural f

theorem Signature.same_iff (s t : Signature) : s.same t = true ↔ s = t := by
  cases s with
  | mk q ps qs v =>
    cases t
    simp [Signature.same, sameReceiver_iff q, sameTypes_iff ps, sameTypes_iff qs, and_assoc]
termination_by structural s

end

instance : DecidableEq GoType := fun s t => decidable_of_iff _ (GoType.same_iff s t)

instance : DecidableEq Field := fun f g => decidable_of_iff _ (Field.same_iff f g)

instance : DecidableEq Signature := fun s t => decidable_of_iff _ (Signature.same_iff s t)

end GoLua
