import TreeWalk.Tree.Basic

/-!
Trees as JSON values. A node is an object whose field `type` names its type; the other fields are
its parts in order, a part that is absent being null.
-/

set_option autoImplicit false

namespace TreeWalk

def Token.encode (t : Token) : Json :=
  .object [("type", .text NodeType.token.name), ("kind", .text t.kind.name), ("text", t.text),
    ("line", .number (.whole t.line))]

def Literal.encode : Literal → Json
  | .null => .null
  | .bool b => .bool b
  | .number x => .number (.double x)
  | .text s => .text s

/-- An object for a node with these parts. -/
def NodeType.encode (t : NodeType) (parts : List (Text × Json)) : Json :=
  .object (("type", .text t.name) :: parts)

def Expr.encode : Expr → Json
  | .literal value => NodeType.literal.encode [("value", value.encode)]
  | .var name => NodeType.var.encode [("name", name.encode)]
  | .assign name value => NodeType.assign.encode [("name", name.encode), ("value", value.encode)]
  | .logical left operator right =>
    NodeType.logical.encode
      [("left", left.encode), ("operator", operator.encode), ("right", right.encode)]
  | .unary operator operand =>
    NodeType.unary.encode [("operator", operator.encode), ("right", operand.encode)]
  | .binary left operator right =>
    NodeType.binary.encode
      [("left", left.encode), ("operator", operator.encode), ("right", right.encode)]
  | .grouping inner => NodeType.grouping.encode [("expression", inner.encode)]

mutual

def Stmt.encode : Stmt → Json
  | .print value => NodeType.print.encode [("expression", value.encode)]
  | .expression value => NodeType.expression.encode [("expression", value.encode)]
  | .declare name none =>
    NodeType.declare.encode [("name", name.encode), ("initializer", .null)]
  | .declare name (some initial) =>
    NodeType.declare.encode [("name", name.encode), ("initializer", initial.encode)]
  | .block body => NodeType.block.encode [("statements", .list (Stmt.encodeAll body))]
  | .ifThen condition yes =>
    NodeType.branch.encode
      [("condition", condition.encode), ("then_branch", yes.encode), ("else_branch", .null)]
  | .ifThenElse condition yes no =>
    NodeType.branch.encode
      [("condition", condition.encode), ("then_branch", yes.encode), ("else_branch", no.encode)]
  | .loop condition body =>
    NodeType.loop.encode [("condition", condition.encode), ("body", body.encode)]

def Stmt.encodeAll : List Stmt → List Json
  | [] => []
  | s :: rest => s.encode :: Stmt.encodeAll rest

end

def Program.encode (p : Program) : Json :=
  NodeType.program.encode [("statements", .list (Stmt.encodeAll p.statements))]

def Node.encode : Node → Json
  | .null => .null
  | .token t => t.encode
  | .program p => p.encode
  | .statement s => s.encode
  | .expression e => e.encode

end TreeWalk
