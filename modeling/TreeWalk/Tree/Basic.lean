import TreeWalk.Tree.Token

/-!
Syntax trees. Statements have effects when they are executed, expressions have values when they are
evaluated; a program is a list of statements.
-/

set_option autoImplicit false

namespace TreeWalk

/-- A constant of a program. All its numbers are doubles. -/
inductive Literal where
  | null
  | bool (b : Bool)
  | number (x : Float)
  | text (s : Text)
  deriving DecidableEq

inductive Expr where
  | literal (value : Literal)
  | var (name : Token)
  | assign (name : Token) (value : Expr)
  | logical (left : Expr) (operator : Token) (right : Expr)
  | unary (operator : Token) (operand : Expr)
  | binary (left : Expr) (operator : Token) (right : Expr)
  | grouping (inner : Expr)

inductive Stmt where
  | print (value : Expr)
  | expression (value : Expr)
  | declare (name : Token) (initial : Option Expr)
  | block (body : List Stmt)
  | ifThen (condition : Expr) (yes : Stmt)
  | ifThenElse (condition : Expr) (yes no : Stmt)
  | loop (condition : Expr) (body : Stmt)

structure Program where
  statements : List Stmt

/-- Any part of a tree, or nothing. -/
inductive Node where
  | null
  | token (t : Token)
  | program (p : Program)
  | statement (s : Stmt)
  | expression (e : Expr)

/-- The types of nodes that a document tells apart. -/
inductive NodeType where
  | token
  | program
  | print
  | expression
  | declare
  | block
  | branch
  | loop
  | logical
  | assign
  | var
  | literal
  | grouping
  | unary
  | binary
  deriving DecidableEq, Repr

namespace NodeType

def all : List NodeType :=
  [.token, .program, .print, .expression, .declare, .block, .branch, .loop, .logical, .assign,
   .var, .literal, .grouping, .unary, .binary]

/-- How the type is named in documents and messages. -/
def name : NodeType → String
  | .token => "Token"
  | .program => "Program"
  | .print => "PrintStmt"
  | .expression => "ExprStmt"
  | .declare => "VarDecl"
  | .block => "Block"
  | .branch => "IfStmt"
  | .loop => "WhileStmt"
  | .logical => "Logical"
  | .assign => "Assign"
  | .var => "Variable"
  | .literal => "Literal"
  | .grouping => "Grouping"
  | .unary => "Unary"
  | .binary => "Binary"

def ofName? (s : Text) : Option NodeType := all.find? fun type => (type.name : Text) = s

theorem ofName?_name (t : NodeType) : ofName? t.name = some t := by
  cases t <;> decide

end NodeType

def Expr.nodeType : Expr → NodeType
  | .literal .. => .literal
  | .var .. => .var
  | .assign .. => .assign
  | .logical .. => .logical
  | .unary .. => .unary
  | .binary .. => .binary
  | .grouping .. => .grouping

def Stmt.nodeType : Stmt → NodeType
  | .print .. => .print
  | .expression .. => .expression
  | .declare .. => .declare
  | .block .. => .block
  | .ifThen .. => .branch
  | .ifThenElse .. => .branch
  | .loop .. => .loop

/-- The name of a node's type; nothing is named as messages name a null. -/
def Node.typeName : Node → String
  | .null => "NoneType"
  | .token _ => NodeType.token.name
  | .program _ => NodeType.program.name
  | .statement s => s.nodeType.name
  | .expression e => e.nodeType.name

end TreeWalk
