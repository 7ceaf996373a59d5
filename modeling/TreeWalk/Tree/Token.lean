import TreeWalk.Json.Basic

/-!
Tokens of a syntax tree: operators and names, with the text and the line that messages show. A
token read from a document may have any JSON value as its text.
-/

set_option autoImplicit false

namespace TreeWalk

inductive Kind where
  | add
  | subtract
  | multiply
  | divide
  | not
  | equal
  | notEqual
  | greater
  | greaterEqual
  | less
  | lessEqual
  | and
  | or
  | identifier
  deriving DecidableEq, Repr

namespace Kind

def all : List Kind :=
  [.add, .subtract, .multiply, .divide, .not, .equal, .notEqual, .greater, .greaterEqual, .less,
   .lessEqual, .and, .or, .identifier]

/-- How the kind is written in a source text. -/
def symbol : Kind → String
  | .add => "+"
  | .subtract => "-"
  | .multiply => "*"
  | .divide => "/"
  | .not => "!"
  | .equal => "=="
  | .notEqual => "!="
  | .greater => ">"
  | .greaterEqual => ">="
  | .less => "<"
  | .lessEqual => "<="
  | .and => "and"
  | .or => "or"
  | .identifier => "identifier"

/-- How the kind is named in a document. -/
def name : Kind → String
  | .add => "ADD"
  | .subtract => "SUBTRACT"
  | .multiply => "MULTIPLY"
  | .divide => "DIVIDE"
  | .not => "NOT"
  | .equal => "EQUIVALENT"
  | .notEqual => "NOT_EQUAL"
  | .greater => "GREATER_THAN"
  | .greaterEqual => "GREATER_EQUAL"
  | .less => "LESS_THAN"
  | .lessEqual => "LESS_EQUAL"
  | .and => "AND"
  | .or => "OR"
  | .identifier => "IDENTIFIER"

def ofSymbol? (s : String) : Option Kind := all.find? (·.symbol = s)

def ofName? (s : Text) : Option Kind := all.find? fun kind => (kind.name : Text) = s

theorem ofSymbol?_symbol (k : Kind) : ofSymbol? k.symbol = some k := by
  cases k <;> decide

theorem ofName?_name (k : Kind) : ofName? k.name = some k := by
  cases k <;> decide

end Kind

structure Token where
  kind : Kind
  text : Json
  line : Int

namespace Token

def operator? (symbol : String) (line : Int) : Option Token :=
  (Kind.ofSymbol? symbol).map fun kind => ⟨kind, .text symbol, line⟩

def identifier (name : String) (line : Int) : Token := ⟨.identifier, .text name, line⟩

/-- The text of a token as messages show it. -/
def display (t : Token) : Text := t.text.display

end Token

end TreeWalk
