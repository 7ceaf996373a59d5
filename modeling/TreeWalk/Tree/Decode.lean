import TreeWalk.Json.Reader
import TreeWalk.Tree.Basic

/-!
Trees from JSON values. The parts of a node are decoded in order and each must be of the family
that its place asks for: an expression, a statement or a token. Fields that a node does not have
are ignored. The first fault is reported.
-/

set_option autoImplicit false

namespace TreeWalk

inductive DecodeError where
  | notAnObject
  | unknownType (type : Json)
  | missingField (key : String)
  | unknownKind (kind : Json)
  | unhashable (kind : String)
  | wrongFamily (expected found : String)
  | notIterable (kind : String)
  | lineText (s : Text)
  | lineTooLong (digits : Nat)
  | lineKind (kind : String)
  | lineNotANumber
  | lineInfinite
  | invalidLiteral (value : Json)
  | literalOutOfRange (n : Int)

def DecodeError.message : DecodeError → Text
  | .notAnObject => "Invalid AST object"
  | .unknownType type => "Unknown AST node type: " ++ type.display
  | .missingField key => Text.quote key
  | .unknownKind kind => kind.quoted
  | .unhashable kind => s!"unhashable type: '{kind}'"
  | .wrongFamily expected found => s!"expected {expected}, got {found}"
  | .notIterable kind => s!"'{kind}' object is not iterable"
  | .lineText s =>
    s!"invalid literal for int() with base 10: {String.ofList ((Text.quote s).toList.take 200)}"
  | .lineTooLong digits => (Json.Fault.tooManyDigits digits).message []
  | .lineKind kind =>
    s!"int() argument must be a string, a bytes-like object or a real number, not '{kind}'"
  | .lineNotANumber => "cannot convert float NaN to integer"
  | .lineInfinite => "cannot convert float infinity to integer"
  | .invalidLiteral value => s!"Invalid literal value: {value.quoted}"
  | .literalOutOfRange n => s!"Number literal out of range: {n}"

/-- The integer that a token's line stands for: a double loses its fraction, a text is read. A text
that begins with too many digits is refused as too long whatever follows them. -/
def decodeLine : Json → Except DecodeError Int
  | .bool b => .ok (if b then 1 else 0)
  | .number (.whole n) => .ok n
  | .number (.double x) =>
    match Number.truncate? x with
    | some n => .ok n
    | none => .error (if x.isNaN then .lineNotANumber else .lineInfinite)
  | .text s =>
    let digits := ((Numeral.leadingDigits? s.escaped).getD []).length
    if Json.digitLimit < digits then .error (.lineTooLong digits)
    else
      match Numeral.readInt? s.escaped with
      | some n => .ok n
      | none => .error (.lineText s)
  | value => .error (.lineKind value.kind)

def decodeKind : Json → Except DecodeError Kind
  | .text s =>
    match Kind.ofName? s with
    | some kind => .ok kind
    | none => .error (.unknownKind (.text s))
  | .list items => .error (.unhashable (Json.list items).kind)
  | .object fields => .error (.unhashable (Json.object fields).kind)
  | value => .error (.unknownKind value)

def requireField (key : String) (fields : List (Text × Json)) : Except DecodeError Json :=
  match Json.lookup key fields with
  | some value => .ok value
  | none => .error (.missingField key)

/-- A token: its kind, its text, and its line, which is zero where it is absent. -/
def decodeToken (fields : List (Text × Json)) : Except DecodeError Token := do
  let kind ← decodeKind (← requireField "kind" fields)
  let text ← requireField "text" fields
  let line ← decodeLine ((Json.lookup "line" fields).getD (.number (.whole 0)))
  return ⟨kind, text, line⟩

/-- A constant; an integer becomes the nearest double. -/
def decodeLiteral : Json → Except DecodeError Literal
  | .null => .ok .null
  | .bool b => .ok (.bool b)
  | .number (.double x) => .ok (.number x)
  | .number (.whole n) =>
    match (Number.whole n).toDouble? with
    | some x => .ok (.number x)
    | none => .error (.literalOutOfRange n)
  | .text s => .ok (.text s)
  | value => .error (.invalidLiteral value)

def Node.asExpr : Node → Except DecodeError Expr
  | .expression e => .ok e
  | node => .error (.wrongFamily "Expr" node.typeName)

def Node.asStmt : Node → Except DecodeError Stmt
  | .statement s => .ok s
  | node => .error (.wrongFamily "Stmt" node.typeName)

def Node.asToken : Node → Except DecodeError Token
  | .token t => .ok t
  | node => .error (.wrongFamily NodeType.token.name node.typeName)

/-- A part that may be absent. -/
def Node.optional {α : Type} (family : Node → Except DecodeError α) :
    Node → Except DecodeError (Option α)
  | .null => .ok none
  | node => do return some (← family node)

def decodeType (fields : List (Text × Json)) : Except DecodeError NodeType :=
  match (Json.lookup "type" fields).getD .null with
  | .text s =>
    match NodeType.ofName? s with
    | some type => .ok type
    | none => .error (.unknownType (.text s))
  | type => .error (.unknownType type)

mutual

def decode : Json → Except DecodeError Node
  | .null => .ok .null
  | .object fields => do
    match ← decodeType fields with
    | .token => return .token (← decodeToken fields)
    | .program => return .program ⟨← decodeBody fields⟩
    | .print =>
      let value ← (← decodeField "expression" fields).asExpr
      return .statement (.print value)
    | .expression =>
      let value ← (← decodeField "expression" fields).asExpr
      return .statement (.expression value)
    | .declare =>
      let name ← (← decodeField "name" fields).asToken
      let initial ← (← decodeOptional "initializer" fields).optional Node.asExpr
      return .statement (.declare name initial)
    | .block => return .statement (.block (← decodeBody fields))
    | .branch =>
      let condition ← (← decodeField "condition" fields).asExpr
      let yes ← (← decodeField "then_branch" fields).asStmt
      match ← (← decodeOptional "else_branch" fields).optional Node.asStmt with
      | none => return .statement (.ifThen condition yes)
      | some no => return .statement (.ifThenElse condition yes no)
    | .loop =>
      let condition ← (← decodeField "condition" fields).asExpr
      let body ← (← decodeField "body" fields).asStmt
      return .statement (.loop condition body)
    | .logical =>
      let left ← (← decodeField "left" fields).asExpr
      let operator ← (← decodeField "operator" fields).asToken
      let right ← (← decodeField "right" fields).asExpr
      return .expression (.logical left operator right)
    | .assign =>
      let name ← (← decodeField "name" fields).asToken
      let value ← (← decodeField "value" fields).asExpr
      return .expression (.assign name value)
    | .var =>
      let name ← (← decodeField "name" fields).asToken
      return .expression (.var name)
    | .literal =>
      let value ← decodeLiteral ((Json.lookup "value" fields).getD .null)
      return .expression (.literal value)
    | .grouping =>
      let inner ← (← decodeField "expression" fields).asExpr
      return .expression (.grouping inner)
    | .unary =>
      let operator ← (← decodeField "operator" fields).asToken
      let operand ← (← decodeField "right" fields).asExpr
      return .expression (.unary operator operand)
    | .binary =>
      let left ← (← decodeField "left" fields).asExpr
      let operator ← (← decodeField "operator" fields).asToken
      let right ← (← decodeField "right" fields).asExpr
      return .expression (.binary left operator right)
  | _ => .error .notAnObject
termination_by structural json => json

def decodeField (key : String) : List (Text × Json) → Except DecodeError Node
  | [] => .error (.missingField key)
  | (k, value) :: fields => if k = key then decode value else decodeField key fields
termination_by structural fields => fields

/-- Decodes a part that counts as null where it is absent. -/
def decodeOptional (key : String) : List (Text × Json) → Except DecodeError Node
  | [] => .ok .null
  | (k, value) :: fields => if k = key then decode value else decodeOptional key fields
termination_by structural fields => fields

def decodeBody : List (Text × Json) → Except DecodeError (List Stmt)
  | [] => .error (.missingField "statements")
  | (k, value) :: fields => if k = "statements" then decodeStatements value else decodeBody fields
termination_by structural fields => fields

/-- Decodes a list of statements. A text or an object that holds nothing counts as an empty list;
one that holds something holds no node. -/
def decodeStatements : Json → Except DecodeError (List Stmt)
  | .list items => decodeItems items
  | .text s => if s.isEmpty then .ok [] else .error .notAnObject
  | .object [] => .ok []
  | .object (_ :: _) => .error .notAnObject
  | .null => .error (.notIterable Json.null.kind)
  | .bool b => .error (.notIterable (Json.bool b).kind)
  | .number n => .error (.notIterable (Json.number n).kind)
termination_by structural json => json

def decodeItems : List Json → Except DecodeError (List Stmt)
  | [] => .ok []
  | item :: items => do
    let s ← (← decode item).asStmt
    return s :: (← decodeItems items)
termination_by structural items => items

end

end TreeWalk
