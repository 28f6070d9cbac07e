import GoLua.Go.Type

/-!
# Type identity

When Go takes two types for one. A declared type is identical only to a type declared under the
same name, whatever its definition; every other type is compared with its parts. A conversion
between identical types does nothing, so this relation decides which conversions emit code at all.

Host tags play no part in it, nor do receivers: a method's signature is identical to the signature
of the function it becomes.
-/

namespace GoLua

mutual

/-- Whether Go takes two types for one. -/
def GoType.identical : GoType → GoType → Bool
  | .named m _, .named n _ => m == n
  | .basic j, .basic k => j == k
  | .array s m, .array t n => m == n && s.identical t
  | .slice s, .slice t => s.identical t
  | .pointer s, .pointer t => s.identical t
  | .chan s, .chan t => s.identical t
  | .map j s, .map k t => j.identical k && s.identical t
  | .struct fs, .struct gs => identicalFields fs gs
  | .interface ms, .interface ns => ms == ns
  | .func s, .func t => s.identical t
  | .tuple ss, .tuple ts => identicalTypes ss ts
  | _, _ => false
termination_by structural s => s

/-- Whether two lists of types are identical, place by place. -/
def identicalTypes : List GoType → List GoType → Bool
  | [], [] => true
  | s :: ss, t :: ts => s.identical t && identicalTypes ss ts
  | _, _ => false
termination_by structural ss => ss

/-- Whether two lists of fields are identical, place by place. -/
def identicalFields : List Field → List Field → Bool
  | [], [] => true
  | f :: fs, g :: gs => f.identical g && identicalFields fs gs
  | _, _ => false
termination_by structural fs => fs

/-- Whether two fields agree in name, embedding and type. -/
def Field.identical : Field → Field → Bool
  | ⟨m, s, d, _⟩, ⟨n, t, e, _⟩ => m == n && d == e && s.identical t
termination_by structural f => f

/-- Whether two signatures agree in parameters, results and variadicity. -/
def Signature.identical : Signature → Signature → Bool
  | ⟨_, ps, qs, v⟩, ⟨_, rs, ss, w⟩ => v == w && identicalTypes ps rs && identicalTypes qs ss
termination_by structural s => s

end

end GoLua
