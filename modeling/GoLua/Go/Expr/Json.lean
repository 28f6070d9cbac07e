import GoLua.Go.Expr
import GoLua.Source.Json

/-!
# Expression trees in data files

The JSON form of expressions: an object with the number of the node, its span, and its kind with the
parts. A part that an expression may lack is null, and may be missing when read.
-/

namespace GoLua

/-- A node around the JSON form of its kind. -/
def Node.toJson (n : Node) (kind : Json) : Json :=
  .object [("node_id", .nat n.id), ("kind", kind), ("span", n.span.toJson)]

mutual

/-- The JSON form of an expression. -/
def Expr.toJson : Expr → Json
  | .basicLit n token => n.toJson (.variant "BasicLit" (.object [("value", .string token)]))
  | .ident n name => n.toJson (.variant "Ident" (.object [("name", .string name)]))
  | .unary n op operand =>
    n.toJson (.variant "Unary" (.object [("op", .string op.label), ("operand", operand.toJson)]))
  | .binary n op left right =>
    n.toJson (.variant "Binary"
      (.object [("op", .string op.label), ("left", left.toJson), ("right", right.toJson)]))
  | .index n base index =>
    n.toJson (.variant "Index" (.object [("base", base.toJson), ("index", index.toJson)]))
  | .slice n base low high max =>
    n.toJson (.variant "Slice"
      (.object [("base", base.toJson), ("low", optionToJson low), ("high", optionToJson high),
        ("max", optionToJson max)]))
  | .selector n base sel =>
    n.toJson (.variant "Selector" (.object [("base", base.toJson), ("sel", sel.toJson)]))
  | .call n func args ellipsis =>
    n.toJson (.variant "Call"
      (.object [("func", func.toJson), ("args", .array (argsToJson args)),
        ("ellipsis", .bool ellipsis)]))
  | .compositeLit n elements =>
    n.toJson (.variant "CompositeLit" (.object [("elements", .array (elementsToJson elements))]))
  | .typeAssert n base asserted =>
    n.toJson (.variant "TypeAssert"
      (.object [("base", base.toJson), ("asserted", optionToJson asserted)]))
  | .paren n inner => n.toJson (.variant "Paren" inner.toJson)
  | .star n inner => n.toJson (.variant "Star" inner.toJson)
  | .funcLit n body => n.toJson (.variant "FuncLit" (.object [("body", .nat body)]))
  | .typeExpr n => n.toJson (.string "TypeExpr")
termination_by structural e => e

/-- The JSON form of an expression that may be missing. -/
def optionToJson : Option Expr → Json
  | none => .null
  | some e => e.toJson
termination_by structural e => e

/-- The JSON forms of several expressions. -/
def argsToJson : List Expr → List Json
  | [] => []
  | e :: es => e.toJson :: argsToJson es
termination_by structural es => es

/-- The JSON forms of the elements of a literal. -/
def elementsToJson : List Element → List Json
  | [] => []
  | e :: es => e.toJson :: elementsToJson es
termination_by structural es => es

/-- The JSON form of an element. -/
def Element.toJson : Element → Json
  | ⟨key, value⟩ => .object [("key", optionToJson key), ("value", value.toJson)]
termination_by structural e => e

end

mutual

/-- Reads an expression. -/
def Expr.ofJson? (j : Json) : Option Expr := do
  let id ← j.required? "node_id" Json.word32?
  let ⟨kind, _⟩ ← j.get? "kind"
  let span ← j.required? "span" Span.ofJson?
  let node : Node := { id, span }
  if kind.label? = some "TypeExpr" then return .typeExpr node
  match kind.variant? with
  | none => none
  | some (tag, ⟨body, _⟩) =>
    match tag with
    | "BasicLit" => return .basicLit node (← body.required? "value" Json.string?)
    | "Ident" => return .ident node (← body.required? "name" Json.string?)
    | "Unary" =>
      let op ← body.required? "op" fun o => o.label?.bind UnaryOp.ofLabel?
      let ⟨operand, _⟩ ← body.get? "operand"
      return .unary node op (← Expr.ofJson? operand)
    | "Binary" =>
      let op ← body.required? "op" fun o => o.label?.bind BinaryOp.ofLabel?
      let ⟨left, _⟩ ← body.get? "left"
      let ⟨right, _⟩ ← body.get? "right"
      return .binary node op (← Expr.ofJson? left) (← Expr.ofJson? right)
    | "Index" =>
      let ⟨base, _⟩ ← body.get? "base"
      let ⟨index, _⟩ ← body.get? "index"
      return .index node (← Expr.ofJson? base) (← Expr.ofJson? index)
    | "Slice" =>
      let ⟨base, _⟩ ← body.get? "base"
      let base ← Expr.ofJson? base
      let low ← match ← body.getOptional? "low" with
        | none => some none
        | some ⟨e, _⟩ => (Expr.ofJson? e).map some
      let high ← match ← body.getOptional? "high" with
        | none => some none
        | some ⟨e, _⟩ => (Expr.ofJson? e).map some
      let max ← match ← body.getOptional? "max" with
        | none => some none
        | some ⟨e, _⟩ => (Expr.ofJson? e).map some
      return .slice node base low high max
    | "Selector" =>
      let ⟨base, _⟩ ← body.get? "base"
      let ⟨sel, _⟩ ← body.get? "sel"
      return .selector node (← Expr.ofJson? base) (← Expr.ofJson? sel)
    | "Call" =>
      let ⟨func, _⟩ ← body.get? "func"
      let func ← Expr.ofJson? func
      let ⟨args, _⟩ ← body.get? "args"
      let parts ← args.items?
      let args ← parts.mapM fun ⟨e, _⟩ => Expr.ofJson? e
      return .call node func args (← body.required? "ellipsis" Json.bool?)
    | "CompositeLit" =>
      let ⟨elements, _⟩ ← body.get? "elements"
      let parts ← elements.items?
      return .compositeLit node (← parts.mapM fun ⟨e, _⟩ => Element.ofJson? e)
    | "TypeAssert" =>
      let ⟨base, _⟩ ← body.get? "base"
      let base ← Expr.ofJson? base
      let asserted ← match ← body.getOptional? "asserted" with
        | none => some none
        | some ⟨e, _⟩ => (Expr.ofJson? e).map some
      return .typeAssert node base asserted
    | "Paren" => return .paren node (← Expr.ofJson? body)
    | "Star" => return .star node (← Expr.ofJson? body)
    | "FuncLit" => return .funcLit node (← body.required? "body" Json.word32?)
    | _ => none
termination_by sizeOf j
decreasing_by all_goals omega

/-- Reads an element. -/
def Element.ofJson? (j : Json) : Option Element := do
  let key ← match ← j.getOptional? "key" with
    | none => some none
    | some ⟨e, _⟩ => (Expr.ofJson? e).map some
  let ⟨value, _⟩ ← j.get? "value"
  return { key, value := ← Expr.ofJson? value }
termination_by sizeOf j

end

end GoLua
