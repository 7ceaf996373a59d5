import TreeWalk.Proofs.Json.RoundTrip
import TreeWalk.Tree.Decode
import TreeWalk.Tree.Encode

/-!
Trees and documents. Decoding an encoded tree gives the tree back, whatever its tokens are. The
document of a tree is one that the reader gives back if this holds of the tokens and the constants
in the tree.
-/

set_option autoImplicit false

namespace TreeWalk

/-- The tokens of an expression, from left to right. -/
def Expr.tokens : Expr → List Token
  | .literal _ => []
  | .var name => [name]
  | .assign name value => name :: value.tokens
  | .logical left operator right => left.tokens ++ operator :: right.tokens
  | .unary operator operand => operator :: operand.tokens
  | .binary left operator right => left.tokens ++ operator :: right.tokens
  | .grouping inner => inner.tokens

mutual

def Stmt.tokens : Stmt → List Token
  | .print value => value.tokens
  | .expression value => value.tokens
  | .declare name none => [name]
  | .declare name (some initial) => name :: initial.tokens
  | .block body => Stmt.tokensAll body
  | .ifThen condition yes => condition.tokens ++ yes.tokens
  | .ifThenElse condition yes no => condition.tokens ++ yes.tokens ++ no.tokens
  | .loop condition body => condition.tokens ++ body.tokens

def Stmt.tokensAll : List Stmt → List Token
  | [] => []
  | s :: rest => s.tokens ++ Stmt.tokensAll rest

end

def Program.tokens (p : Program) : List Token := Stmt.tokensAll p.statements

def Expr.constants : Expr → List Literal
  | .literal value => [value]
  | .var _ => []
  | .assign _ value => value.constants
  | .logical left _ right => left.constants ++ right.constants
  | .unary _ operand => operand.constants
  | .binary left _ right => left.constants ++ right.constants
  | .grouping inner => inner.constants

mutual

def Stmt.constants : Stmt → List Literal
  | .print value => value.constants
  | .expression value => value.constants
  | .declare _ none => []
  | .declare _ (some initial) => initial.constants
  | .block body => Stmt.constantsAll body
  | .ifThen condition yes => condition.constants ++ yes.constants
  | .ifThenElse condition yes no => condition.constants ++ yes.constants ++ no.constants
  | .loop condition body => condition.constants ++ body.constants

def Stmt.constantsAll : List Stmt → List Literal
  | [] => []
  | s :: rest => s.constants ++ Stmt.constantsAll rest

end

def Program.constants (p : Program) : List Literal := Stmt.constantsAll p.statements

/-- A constant that holds no half of a pair. -/
def Literal.encodable : Literal → Bool
  | .text s => s.encodable
  | .null | .bool _ | .number _ => true

@[simp] theorem ok_bind {ε α β : Type} (a : α) (f : α → Except ε β) :
    (Except.ok a >>= f) = f a := rfl

@[simp] theorem decodeType_cons (t : NodeType) (parts : List (Text × Json)) :
    decodeType (("type", .text t.name) :: parts) = .ok t := by
  simp [decodeType, Json.lookup, NodeType.ofName?_name]

theorem decodeLiteral_encode (value : Literal) : decodeLiteral value.encode = .ok value := by
  cases value <;> rfl

theorem decode_token (t : Token) : decode t.encode = .ok (.token t) := by
  have kind : decodeKind (.text t.kind.name) = .ok t.kind := by
    simp only [decodeKind, Kind.ofName?_name]
  have parts : decodeToken [("type", .text NodeType.token.name), ("kind", .text t.kind.name),
      ("text", t.text), ("line", .number (.whole t.line))] = .ok t := by
    simp [decodeToken, requireField, Json.lookup, kind, decodeLine, pure, Except.pure]
  simp [Token.encode, decode, parts, pure, Except.pure]

theorem decode_expr (e : Expr) : decode e.encode = .ok (.expression e) := by
  induction e with
  | literal value =>
    simp [Expr.encode, NodeType.encode, decode, Json.lookup, decodeLiteral_encode, pure,
      Except.pure]
  | var name =>
    simp [Expr.encode, NodeType.encode, decode, decodeField, decode_token, Node.asToken, pure,
      Except.pure]
  | assign name value ih =>
    simp [Expr.encode, NodeType.encode, decode, decodeField, decode_token, Node.asToken, ih,
      Node.asExpr, pure, Except.pure]
  | logical left operator right ihLeft ihRight =>
    simp [Expr.encode, NodeType.encode, decode, decodeField, decode_token, Node.asToken, ihLeft,
      ihRight, Node.asExpr, pure, Except.pure]
  | unary operator operand ih =>
    simp [Expr.encode, NodeType.encode, decode, decodeField, decode_token, Node.asToken, ih,
      Node.asExpr, pure, Except.pure]
  | binary left operator right ihLeft ihRight =>
    simp [Expr.encode, NodeType.encode, decode, decodeField, decode_token, Node.asToken, ihLeft,
      ihRight, Node.asExpr, pure, Except.pure]
  | grouping inner ih =>
    simp [Expr.encode, NodeType.encode, decode, decodeField, ih, Node.asExpr, pure, Except.pure]

mutual

theorem decode_stmt : ∀ s : Stmt, decode s.encode = .ok (.statement s)
  | .print value | .expression value => by
    simp [Stmt.encode, NodeType.encode, decode, decodeField, decode_expr, Node.asExpr, pure,
      Except.pure]
  | .declare name none => by
    simp [Stmt.encode, NodeType.encode, decode, decodeField, decodeOptional, decode_token,
      Node.asToken, Node.optional, pure, Except.pure]
  | .declare name (some initial) => by
    simp [Stmt.encode, NodeType.encode, decode, decodeField, decodeOptional, decode_token,
      decode_expr, Node.asToken, Node.asExpr, Node.optional, pure, Except.pure]
  | .block body => by
    simp [Stmt.encode, NodeType.encode, decode, decodeBody, decodeStatements, decodeItems_encodeAll,
      pure, Except.pure]
  | .ifThen condition yes => by
    simp [Stmt.encode, NodeType.encode, decode, decodeField, decodeOptional, decode_expr,
      decode_stmt yes, Node.asExpr, Node.asStmt, Node.optional, pure, Except.pure]
  | .ifThenElse condition yes no => by
    simp [Stmt.encode, NodeType.encode, decode, decodeField, decodeOptional, decode_expr,
      decode_stmt yes, decode_stmt no, Node.asExpr, Node.asStmt, Node.optional, pure, Except.pure]
  | .loop condition body => by
    simp [Stmt.encode, NodeType.encode, decode, decodeField, decode_expr, decode_stmt body,
      Node.asExpr, Node.asStmt, pure, Except.pure]

theorem decodeItems_encodeAll : ∀ body : List Stmt, decodeItems (Stmt.encodeAll body) = .ok body
  | [] => by rw [Stmt.encodeAll, decodeItems]
  | s :: rest => by
    simp [Stmt.encodeAll, decodeItems, decode_stmt s, decodeItems_encodeAll rest, Node.asStmt, pure,
      Except.pure]

end

/-- Decoding the encoding of a program gives the program back. -/
theorem decode_program (p : Program) : decode p.encode = .ok (.program p) := by
  simp [Program.encode, NodeType.encode, decode, decodeBody, decodeStatements,
    decodeItems_encodeAll, pure, Except.pure]

theorem decode_node (n : Node) : decode n.encode = .ok n := by
  cases n with
  | null => rfl
  | token t => exact decode_token t
  | program p => exact decode_program p
  | statement s => exact decode_stmt s
  | expression e => exact decode_expr e

/-- Every part of a tree, wherever it comes from, is what decoding gives for its encoding. So a
value that is decoded, encoded and decoded again gives what it gave at first, or the same fault. -/
theorem decode_undoes_encode :
    (∀ n : Node, decode n.encode = .ok n) ∧
      ∀ json : Json, (decode json >>= fun n => decode n.encode) = decode json := by
  refine ⟨decode_node, ?_⟩
  intro json
  cases decode json with
  | ok n => exact decode_node n
  | error e => rfl

/-- A token whose text and line the reader gives back. -/
def Token.Readable (t : Token) : Prop := t.text.Readable ∧ Json.Fits (.whole t.line)

section

open Json

theorem readable_node (t : NodeType) {parts : List (Text × Json)}
    (distinct : (("type" : Text) :: parts.map Prod.fst).Nodup) (h : ReadableFields parts) :
    Readable (t.encode parts) := by
  rw [NodeType.encode, Readable, ReadableFields, Readable]
  exact ⟨distinct, Text.encodable_ofString _, Text.encodable_ofString _, h⟩

theorem readable_token {t : Token} (h : t.Readable) : Readable t.encode := by
  apply readable_node .token (by simp)
  simp only [ReadableFields, Readable, Text.encodable_ofString, and_true, true_and]
  exact h

theorem readable_literal {value : Literal} (whole : value.encodable = true) :
    Readable value.encode := by
  cases value with
  | text s => exact whole
  | null | bool | number => simp [Literal.encode, Readable, Fits]

theorem readable_expr {e : Expr} (tokens : ∀ t ∈ e.tokens, t.Readable)
    (constants : ∀ c ∈ e.constants, c.encodable = true) : Readable e.encode := by
  induction e with
  | literal value =>
    apply readable_node _ (by simp)
    simp [ReadableFields, readable_literal (constants value List.mem_cons_self)]
  | var name =>
    apply readable_node _ (by simp)
    simp [ReadableFields, readable_token (tokens name List.mem_cons_self)]
  | assign name value ih =>
    simp only [Expr.tokens, List.forall_mem_cons] at tokens
    apply readable_node _ (by simp)
    simp [ReadableFields, readable_token tokens.1, ih tokens.2 constants]
  | logical left operator right ihLeft ihRight | binary left operator right ihLeft ihRight =>
    simp only [Expr.tokens, List.forall_mem_append, List.forall_mem_cons] at tokens
    simp only [Expr.constants, List.forall_mem_append] at constants
    apply readable_node _ (by simp)
    simp [ReadableFields, ihLeft tokens.1 constants.1, readable_token tokens.2.1,
      ihRight tokens.2.2 constants.2]
  | unary operator operand ih =>
    simp only [Expr.tokens, List.forall_mem_cons] at tokens
    apply readable_node _ (by simp)
    simp [ReadableFields, readable_token tokens.1, ih tokens.2 constants]
  | grouping inner ih =>
    apply readable_node _ (by simp)
    simp [ReadableFields, ih tokens constants]

mutual

theorem readable_stmt : ∀ s : Stmt, (∀ t ∈ s.tokens, t.Readable) →
    (∀ c ∈ s.constants, c.encodable = true) → Readable s.encode
  | .print value, tokens, constants | .expression value, tokens, constants => by
    rw [Stmt.tokens] at tokens
    rw [Stmt.constants] at constants
    rw [Stmt.encode]
    apply readable_node _ (by simp)
    simp [ReadableFields, readable_expr tokens constants]
  | .declare name none, tokens, _ => by
    rw [Stmt.tokens] at tokens
    rw [Stmt.encode]
    apply readable_node _ (by simp)
    simp [ReadableFields, Readable, readable_token (tokens name List.mem_cons_self)]
  | .declare name (some initial), tokens, constants => by
    rw [Stmt.tokens, List.forall_mem_cons] at tokens
    rw [Stmt.constants] at constants
    rw [Stmt.encode]
    apply readable_node _ (by simp)
    simp [ReadableFields, readable_token tokens.1, readable_expr tokens.2 constants]
  | .block body, tokens, constants => by
    rw [Stmt.tokens] at tokens
    rw [Stmt.constants] at constants
    rw [Stmt.encode]
    apply readable_node _ (by simp)
    simp [ReadableFields, readable_stmts body tokens constants]
  | .ifThen condition yes, tokens, constants => by
    rw [Stmt.tokens, List.forall_mem_append] at tokens
    rw [Stmt.constants, List.forall_mem_append] at constants
    rw [Stmt.encode]
    apply readable_node _ (by simp)
    simp [ReadableFields, Readable, readable_expr tokens.1 constants.1,
      readable_stmt yes tokens.2 constants.2]
  | .ifThenElse condition yes no, tokens, constants => by
    rw [Stmt.tokens, List.forall_mem_append, List.forall_mem_append] at tokens
    rw [Stmt.constants, List.forall_mem_append, List.forall_mem_append] at constants
    rw [Stmt.encode]
    apply readable_node _ (by simp)
    simp [ReadableFields, readable_expr tokens.1.1 constants.1.1,
      readable_stmt yes tokens.1.2 constants.1.2, readable_stmt no tokens.2 constants.2]
  | .loop condition body, tokens, constants => by
    rw [Stmt.tokens, List.forall_mem_append] at tokens
    rw [Stmt.constants, List.forall_mem_append] at constants
    rw [Stmt.encode]
    apply readable_node _ (by simp)
    simp [ReadableFields, readable_expr tokens.1 constants.1,
      readable_stmt body tokens.2 constants.2]

theorem readable_stmts : ∀ body : List Stmt, (∀ t ∈ Stmt.tokensAll body, t.Readable) →
    (∀ c ∈ Stmt.constantsAll body, c.encodable = true) → Readable (.list (Stmt.encodeAll body))
  | [], _, _ => trivial
  | s :: rest, tokens, constants => by
    rw [Stmt.tokensAll, List.forall_mem_append] at tokens
    rw [Stmt.constantsAll, List.forall_mem_append] at constants
    have others := readable_stmts rest tokens.2 constants.2
    rw [Readable] at others
    rw [Stmt.encodeAll, Readable, ReadableItems]
    exact ⟨readable_stmt s tokens.1 constants.1, others⟩

end

/-- The document of a program is one that the reader gives back, if this holds of its tokens and its
constants. -/
theorem readable_program {p : Program} (tokens : ∀ t ∈ p.tokens, t.Readable)
    (constants : ∀ c ∈ p.constants, c.encodable = true) : Readable p.encode := by
  apply readable_node _ (by simp)
  simp [ReadableFields, readable_stmts p.statements tokens constants]

end

end TreeWalk
