import GoLua.Config
import GoLua.Config.Json
import GoLua.Emit.FunctionState
import GoLua.Emit.LowerM
import GoLua.Emit.Statement
import GoLua.Facts.Facts
import GoLua.Facts.Json
import GoLua.Facts.Marks
import GoLua.Facts.NodeTable
import GoLua.Failure
import GoLua.Go.Constant
import GoLua.Go.Constant.Json
import GoLua.Go.Expr
import GoLua.Go.Expr.Json
import GoLua.Go.Kind
import GoLua.Go.Object
import GoLua.Go.Object.Json
import GoLua.Go.Operator
import GoLua.Go.Type
import GoLua.Go.Type.Equality
import GoLua.Go.Type.Form
import GoLua.Go.Type.Identity
import GoLua.Go.Type.Json
import GoLua.Go.Type.Text
import GoLua.Json.Number
import GoLua.Json.Reader
import GoLua.Json.Value
import GoLua.Json.Writer
import GoLua.Lower.Binary
import GoLua.Lower.Builtin
import GoLua.Lower.Call
import GoLua.Lower.Composite
import GoLua.Lower.Constant
import GoLua.Lower.Conversion
import GoLua.Lower.Expr
import GoLua.Lower.FunctionLiteral
import GoLua.Lower.Host.Method
import GoLua.Lower.Host.Value
import GoLua.Lower.Identifier
import GoLua.Lower.Index
import GoLua.Lower.Object
import GoLua.Lower.Selector
import GoLua.Lower.Sequence
import GoLua.Lower.Unary
import GoLua.Lower.Zero
import GoLua.Lua.Access
import GoLua.Lua.Aggregate
import GoLua.Lua.Fragment
import GoLua.Lua.Integer
import GoLua.Lua.Literal
import GoLua.Lua.Name
import GoLua.Lua.Support
import GoLua.Lua.Word
import GoLua.Number.Double
import GoLua.Number.Numeral
import GoLua.Number.Shortest
import GoLua.Number.Width
import GoLua.Source.Diagnostic
import GoLua.Source.Json
import GoLua.Source.Position
import GoLua.Template.Pattern
import GoLua.Template.Render
import GoLua.Text.Delimited
import GoLua.Text.Escaped
import GoLua.Text.NameSet
import GoLua.Text.Printable
import GoLua.Text.Uppercase
import GoLua.Tree.Builder
import GoLua.Proofs.Run
import GoLua.Proofs.Minted
import GoLua.Proofs.Built
import GoLua.Proofs.Built.Facts
import GoLua.Proofs.Template.Slots
import GoLua.Proofs.Built.Template
import GoLua.Proofs.Built.Convert
import GoLua.Proofs.Built.Composite
import GoLua.Proofs.Built.Selector
import GoLua.Proofs.Built.Builtin
import GoLua.Proofs.Built.Call
import GoLua.Proofs.Built.Expr
import GoLua.Proofs.Law
import GoLua.Proofs.Effects
import GoLua.Proofs.Frame
import GoLua.Proofs.ShortCircuit
import GoLua.Proofs.Template.SingleEvaluation
import GoLua.Proofs.Integer.Cell
import GoLua.Proofs.Integer.Lowering
import GoLua.Proofs.Integer.Preserved
import GoLua.Proofs.ResumeSteps
import GoLua.Proofs.Temporaries
import GoLua.Proofs.Order
import GoLua.Proofs.AssignedBeforeRead
import GoLua.Proofs.Verbatim
import GoLua.Proofs.Annotations
import GoLua.Proofs.Typed
import GoLua.Proofs.Integer.UncutLowering
import GoLua.Proofs.Brackets.Inserted
import GoLua.Proofs.Locality
import GoLua.Proofs.Run.Expression
import GoLua.Proofs.Run.Still
import GoLua.Proofs.Run.Zero
import GoLua.Proofs.SourceOrder
import GoLua.Proofs.SourceOrder.Argument
import GoLua.Proofs.SourceOrder.Literal
import GoLua.Proofs.SourceOrder.Unmoved
import GoLua.Proofs.Template.Grammar
import GoLua.Proofs.Template.Bytes
import GoLua.Proofs.Packing
import GoLua.Proofs.Placement
import GoLua.Proofs.Json.Lexical
import GoLua.Proofs.Json.Text
import GoLua.Proofs.Json.Form
import GoLua.Proofs.Json.Type
import GoLua.Proofs.Json.Facts
import GoLua.Proofs.Json.Expr
import GoLua.Proofs.Json.RoundTrip
import GoLua.Proofs.Integer.Constant
import GoLua.Proofs.Integer.Literal
import GoLua.Proofs.Lua.StringToken
import GoLua.Proofs.ZeroValue
import GoLua.Proofs.StructLiteral
import GoLua.Proofs.Template.Repeated
import GoLua.Proofs.Comparison
import GoLua.Proofs.Integer.ToFloat
import GoLua.Proofs.Copying
import GoLua.Proofs.Template.Repeating
import GoLua.Proofs.Address
import GoLua.Proofs.AccessorBoxes
import GoLua.Proofs.FieldSlots
import GoLua.Proofs.Places
import GoLua.Proofs.EntityNames
import GoLua.Proofs.Type.Identity
import GoLua.Proofs.Type.Words
import GoLua.Proofs.Type.Shown
import GoLua.Proofs.Type.Reading
import GoLua.Proofs.Type.Name
import GoLua.Proofs.FreshNames
import GoLua.Proofs.Hygiene
import GoLua.Proofs.Integer.Halves
import GoLua.Proofs.SelectionPaths
import GoLua.Proofs.MethodNames
import GoLua.Proofs.Conversion.Refusal
import GoLua.Proofs.Conversion.Table
import GoLua.Proofs.Integer.Wrapping
import GoLua.Proofs.Integer.Cutting
import GoLua.Proofs.AccessPaths
import GoLua.Proofs.Nesting.Counted
import GoLua.Proofs.Nesting.Agree
import GoLua.Proofs.Nesting.Rules
import GoLua.Proofs.Nesting.Bound
