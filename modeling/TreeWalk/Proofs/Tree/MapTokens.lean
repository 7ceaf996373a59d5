import TreeWalk.Tree.Basic

/-!
Trees with other tokens. The tokens that name variables are changed by one function and the
operators by another; the shape of a tree and its constants stay as they are.
-/

set_option autoImplicit false

namespace TreeWalk

section

variable (names operators : Token → Token)

def Expr.mapTokens : Expr → Expr
  | .literal value => .literal value
  | .var name => .var (names name)
  | .assign name value => .assign (names name) value.mapTokens
  | .logical left operator right => .logical left.mapTokens (operators operator) right.mapTokens
  | .unary operator operand => .unary (operators operator) operand.mapTokens
  | .binary left operator right => .binary left.mapTokens (operators operator) right.mapTokens
  | .grouping inner => .grouping inner.mapTokens

mutual

def Stmt.mapTokens : Stmt → Stmt
  | .print value => .print (value.mapTokens names operators)
  | .expression value => .expression (value.mapTokens names operators)
  | .declare name initial =>
    .declare (names name) (initial.map (Expr.mapTokens names operators))
  | .block body => .block (Stmt.mapTokensAll body)
  | .ifThen condition yes => .ifThen (condition.mapTokens names operators) yes.mapTokens
  | .ifThenElse condition yes no =>
    .ifThenElse (condition.mapTokens names operators) yes.mapTokens no.mapTokens
  | .loop condition body => .loop (condition.mapTokens names operators) body.mapTokens

def Stmt.mapTokensAll : List Stmt → List Stmt
  | [] => []
  | s :: rest => s.mapTokens :: Stmt.mapTokensAll rest

end

def Program.mapTokens (p : Program) : Program :=
  ⟨Stmt.mapTokensAll names operators p.statements⟩

theorem Stmt.mapTokensAll_eq_map (body : List Stmt) :
    Stmt.mapTokensAll names operators body = body.map (Stmt.mapTokens names operators) := by
  induction body with
  | nil => rfl
  | cons s rest ih => rw [Stmt.mapTokensAll, ih, List.map_cons]

end

theorem Expr.mapTokens_id (e : Expr) : e.mapTokens id id = e := by
  induction e with
  | literal | var => rfl
  | assign name value ih => rw [Expr.mapTokens, ih, id]
  | logical left operator right ihLeft ihRight | binary left operator right ihLeft ihRight =>
    rw [Expr.mapTokens, ihLeft, ihRight, id]
  | unary operator operand ih => rw [Expr.mapTokens, ih, id]
  | grouping inner ih => rw [Expr.mapTokens, ih]

mutual

theorem Stmt.mapTokens_id : ∀ s : Stmt, s.mapTokens id id = s
  | .print value | .expression value => by rw [Stmt.mapTokens, value.mapTokens_id]
  | .declare name none => by rw [Stmt.mapTokens, Option.map_none, id]
  | .declare name (some initial) => by
    rw [Stmt.mapTokens, Option.map_some, initial.mapTokens_id, id]
  | .block body => by rw [Stmt.mapTokens, Stmt.mapTokensAll_id body]
  | .ifThen condition yes => by
    rw [Stmt.mapTokens, condition.mapTokens_id, yes.mapTokens_id]
  | .ifThenElse condition yes no => by
    rw [Stmt.mapTokens, condition.mapTokens_id, yes.mapTokens_id, no.mapTokens_id]
  | .loop condition body => by rw [Stmt.mapTokens, condition.mapTokens_id, body.mapTokens_id]

theorem Stmt.mapTokensAll_id : ∀ body : List Stmt, Stmt.mapTokensAll id id body = body
  | [] => rfl
  | s :: rest => by rw [Stmt.mapTokensAll, s.mapTokens_id, Stmt.mapTokensAll_id rest]

end

end TreeWalk
