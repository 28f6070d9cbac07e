import GoLua.Text.Delimited

/-!
# The run-time library

The names that emitted code calls. The library itself is written elsewhere; these names are all that
lowering knows of it.
-/

namespace GoLua.Lua.Support

/-! ### Containers -/

def newArray := "_gi_NewArray"
def newSlice := "_gi_NewSlice"
def newMap := "_gi_NewMap"
def makeSlice := "__makeSlice"
def sliceOfArray := "__sliceOfArray"
def append := "append"
def appendSlice := "appendSlice"
def copySlice := "copySlice"
def copyString := "__copyString"
def subslice := "__subslice"
def substring := "__substring"

/-! ### Values -/

def newInstance := "__reg:NewInstance"
def clone := "_gi_clone"
def complex := "__complex"
def divComplex := "__divComplex"
def box := "__box"

/-! ### Strings -/

def bytesToString := "__bytesToString"
def runesToString := "__runesToString"
def stringToBytes := "__stringToBytes"
def stringToRunes := "__stringToRunes"
def encodeRune := "__encodeRune"

/-! ### Pointers and methods -/

def newDataPointer := "__newDataPointer"
def newAccessor := "__newAccessor"
def indexPtr := "__indexPtr"
def methodVal := "__methodVal"
def methodExpr := "__methodExpr"
def ifaceMethodExpr := "__ifaceMethodExpr"
def nilPointerError := "__throwNilPointerError"

/-! ### Arithmetic and comparison -/

def intDiv := "__intDiv"
def intMod := "__intMod"
def uintDiv := "__uintDiv"
def uintMod := "__uintMod"
def arshift := "__arshift"
def equal := "__equal"
def interfaceIsEqual := "__interfaceIsEqual"
def assertType := "__assertType"
def runtimeError := "__throwRuntimeError"
def isNil := "__isNil"
def panic := "__panic"
def recover := "__recover"
def print := "__print"
def println := "__println"

/-! ### Channels -/

def newChan := "__newChan"
def chanNil := "__chanNil"
def recv := "__recv"
def close := "__close"

/-! ### The host -/

def global := "__global"
def module := "__module"
def internalize := "__internalize"
def externalize := "__externalize"
def hostObjectPtr := "__jsObjectPtr"
def newHostObject := "__newHostObject"
def parseInt := "__parseInt"
def parseFloat := "__parseFloat"
def debugger := "__debugger"

end Support

/-- A call of a named function. -/
def callText (callee : String) (args : List String) : String :=
  callee ++ Text.parenthesized (Text.commaSeparated args)

end GoLua.Lua
