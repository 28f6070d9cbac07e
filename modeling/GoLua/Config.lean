import GoLua.Go.Type.Equality
import GoLua.Text.NameSet

/-!
# Configuration

The policies that are data: which declared scalar types keep their identity in an interface by
travelling in a box, whether the emitted code runs inside a host whose objects it can reach, and
which package is being compiled.
-/

namespace GoLua

/-- The bridge to the objects of a host: the package that declares it, and the name in that package
of the type of all host objects. -/
structure HostBridge where
  package : String := "github.com/gopherjs/gopherjs/js"
  objectType : String := "Object"
  deriving DecidableEq

/-- The policies of one compilation. -/
structure Config where
  /-- Declared types whose values are boxed when they become interface values. -/
  boxedScalars : NameSet := .empty
  host : Option HostBridge := none
  /-- Entities of this package are named without it. -/
  currentPackage : String := "main"
  deriving DecidableEq

/-- Why a configuration makes no sense. -/
inductive ConfigFault where
  | emptyPackage
  | incompleteHost
  deriving DecidableEq, Repr

def ConfigFault.text : ConfigFault → String
  | .emptyPackage => "current_package must not be empty"
  | .incompleteHost => "host interop needs both a package and an object type"

namespace Config

instance : Inhabited Config := ⟨{}⟩

/-- What is wrong with a configuration, the package before the host. -/
def fault? (c : Config) : Option ConfigFault :=
  if c.currentPackage.isEmpty then some .emptyPackage
  else if c.host.any fun h => h.package.isEmpty || h.objectType.isEmpty then some .incompleteHost
  else none

/-- Whether values of a type are boxed. -/
def isBoxed (c : Config) : GoType → Bool
  | .named name _ => c.boxedScalars.contains name
  | _ => false

/-- Whether a package is the one that declares the bridge. -/
def isHostPackage (c : Config) (package : Option String) : Bool :=
  match c.host, package with
  | some host, some package => host.package == package
  | _, _ => false

/-- Whether a declared type is the type of host objects. -/
def namesHostObject (c : Config) : GoType → Bool
  | .named name _ => c.host.any fun host => name == host.package ++ "." ++ host.objectType
  | _ => false

/-- Whether a type is the type of host objects, or a pointer to it that no name covers. -/
def isHostObject (c : Config) : GoType → Bool
  | .pointer elem => c.namesHostObject elem
  | t => c.namesHostObject t

end Config

end GoLua
