import GoLua.Go.Type.Text
import GoLua.Lua.Integer
import GoLua.Template.Render

/-!
# Values across the host bridge

A value that crosses into the host is *externalized* and a value that is read back is
*internalized* to its static type. Host objects cross as they are. So do truth values, strings,
floats and narrow integers on the way out; on the way in they are converted on the spot. All other
values go through the library, which is told their type.
-/

namespace GoLua.Lower

open Lua

/-- Whether a kind crosses into the host as it is. Integers that fill a cell do not. -/
def crossesPlain (kind : Kind) : Bool :=
  kind.isTruth || kind.isString || kind.isFloat || (kind.isInteger && kind.bitWidth? != some 64)

/-- A raw host value converted to a static type. -/
def internalized (config : Config) (raw : Fragment) (type : GoType) : Fragment :=
  let byLibrary : Fragment := .atom (callText Support.internalize [raw.text, quote type.text])
  if config.isHostObject type then raw
  else
    match type.basicKind? with
    | none => byLibrary
    | some kind =>
      -- Two negations make a truth value of any value.
      if kind.isTruth then .operation ("not not " ++ raw.operand)
      else if kind.isInteger && kind.bitWidth? != some 64 then
        cutToWidth (.atom (callText Support.parseInt [raw.text])) kind
      else if kind.isFloat then .atom (callText Support.parseFloat [raw.text])
      else byLibrary

/-- A lowered expression as the host understands it. -/
def externalized (self : Lowering) (e : Expr) : LowerM Fragment := do
  let type ← typeOf e
  let hostObject ← config (·.isHostObject type)
  if type.isUntypedNil || hostObject || type.basicKind?.any crossesPlain then self e none
  else render self (Support.externalize ++ "(%e, " ++ quote type.text ++ ")") [e]

/-- Several externalized arguments. -/
def externalizedArgs (self : Lowering) (args : List Expr) : LowerM String := do
  return Text.commaSeparated (← args.mapM fun e => Fragment.text <$> externalized self e)

/-- A host object that is stored in an interface or dereferenced. -/
def wrappedHostObject (self : Lowering) (e : Expr) : LowerM Fragment :=
  render self (Support.hostObjectPtr ++ "(%e)") [e]

end GoLua.Lower
