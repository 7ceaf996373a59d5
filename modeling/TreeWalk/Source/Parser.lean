import TreeWalk.Source.Lexeme
import TreeWalk.Tree.Basic

/-!
Reading programs. The parser reads one lexeme at a time. Its state says what may come next and
keeps the statements and the operands that are not complete yet, innermost first:

- an expression is read with a stack of operators, open parentheses and assignments that wait for
  their right operand; an operator first completes those that bind at least as tightly;
- a statement is read inside of open blocks, of branches and of loops; an `else` belongs to the
  nearest branch that has none.

A text that is no program is reported at the first lexeme or character that cannot follow, or at
its end.
-/

set_option autoImplicit false

namespace TreeWalk.Source

/-- What may come next. -/
inductive Slot where
  | declaration
  | afterStatement
  | statement
  | declaredName
  | afterDeclaredName
  | condition
  | operand
  | afterOperand
  | afterAssignable
  deriving DecidableEq, Repr

def startsOperand : Terminal → Bool
  | .number | .string | .name => true
  | .keyword .yes | .keyword .no | .keyword .nothing => true
  | .mark .openParen | .operator .not | .operator .subtract => true
  | _ => false

def startsStatement (t : Terminal) : Bool :=
  startsOperand t || t = .keyword .print || t = .keyword .branch || t = .keyword .loop ||
    t = .mark .openBrace

def followsDeclaration (t : Terminal) : Bool :=
  startsStatement t || t = .keyword .declare || t = .mark .closeBrace

/-- How tightly an operator between two operands binds. -/
def level? : Kind → Option Nat
  | .or => some 1
  | .and => some 2
  | .equal | .notEqual => some 3
  | .greater | .greaterEqual | .less | .lessEqual => some 4
  | .add | .subtract => some 5
  | .multiply | .divide => some 6
  | .not | .identifier => none

def followsOperand : Terminal → Bool
  | .operator k => (level? k).isSome
  | .mark .closeParen | .mark .semicolon => true
  | _ => false

/-- Which lexemes are tried at a place. -/
def Slot.accepts : Slot → Terminal → Bool
  | .declaration, t => followsDeclaration t
  | .afterStatement, t => followsDeclaration t || t = .keyword .otherwise
  | .statement, t => startsStatement t
  | .declaredName, t => t = .name
  | .afterDeclaredName, t => t = .mark .assign || t = .mark .semicolon
  | .condition, t => t = .mark .openParen
  | .operand, t => startsOperand t
  | .afterOperand, t => followsOperand t
  | .afterAssignable, t => followsOperand t || t = .mark .assign

/-- What an expression is read for. -/
inductive Goal where
  | print
  | expression
  | initial (name : Token)
  | branch
  | loop

/-- A part of an expression that waits for its right operand, or an open parenthesis. -/
inductive Pending where
  | operator (left : Expr) (operator : Token)
  | unary (operator : Token)
  | assign (name : Token)
  | group

/-- A statement that is not complete: a block with its statements so far, newest first, a branch
without or with its first part, a loop. -/
inductive Frame where
  | block (done : List Stmt)
  | yes (condition : Expr)
  | no (condition : Expr) (yes : Stmt)
  | body (condition : Expr)

/-- The statements around a place: the open ones, innermost first, and the complete statements of
the program, newest first. -/
structure Outer where
  frames : List Frame
  done : List Stmt

namespace Outer

/-- A statement that no `else` follows is complete, and so are the branches and loops that it
ends. -/
def complete (s : Stmt) : List Frame → List Stmt → Outer
  | [], done => ⟨[], s :: done⟩
  | .block inner :: frames, done => ⟨.block (s :: inner) :: frames, done⟩
  | .yes condition :: frames, done => complete (.ifThen condition s) frames done
  | .no condition yes :: frames, done => complete (.ifThenElse condition yes s) frames done
  | .body condition :: frames, done => complete (.loop condition s) frames done

def add (o : Outer) (s : Stmt) : Outer := complete s o.frames o.done

/-- A statement that an `else` follows is the first part of the nearest branch without one. -/
def attach? (s : Stmt) : List Frame → Option (List Frame)
  | .yes condition :: frames => some (.no condition s :: frames)
  | .no condition yes :: frames => attach? (.ifThenElse condition yes s) frames
  | .body condition :: frames => attach? (.loop condition s) frames
  | _ => none

def push (o : Outer) (frame : Frame) : Outer := ⟨frame :: o.frames, o.done⟩

end Outer

inductive State where
  | declaration (outer : Outer)
  | afterStatement (outer : Outer) (s : Stmt)
  | statement (outer : Outer)
  | declaredName (outer : Outer)
  | afterDeclaredName (outer : Outer) (name : Token)
  | condition (outer : Outer) (goal : Goal)
  | operand (outer : Outer) (goal : Goal) (pending : List Pending)
  | afterOperand (outer : Outer) (goal : Goal) (pending : List Pending) (e : Expr)

/-- An assignment is a whole expression, the content of parentheses or the value of another
assignment. -/
def startsAssignment : List Pending → Bool
  | [] | .group :: _ | .assign _ :: _ => true
  | _ => false

/-- The name that an operand assigns to if an equals sign follows it. -/
def assignable? (pending : List Pending) : Expr → Option Token
  | .var name => if startsAssignment pending then some name else none
  | _ => none

def State.slot : State → Slot
  | .declaration _ => .declaration
  | .afterStatement .. => .afterStatement
  | .statement _ => .statement
  | .declaredName _ => .declaredName
  | .afterDeclaredName .. => .afterDeclaredName
  | .condition .. => .condition
  | .operand .. => .operand
  | .afterOperand _ _ pending e =>
    if (assignable? pending e).isSome then .afterAssignable else .afterOperand

def combine (left : Expr) (operator : Token) (right : Expr) : Expr :=
  if operator.kind = .or ∨ operator.kind = .and then .logical left operator right
  else .binary left operator right

/-- Completes the operators that bind at least as tightly as `level`. -/
def reduce (level : Nat) (e : Expr) : List Pending → Expr × List Pending
  | .unary operator :: pending => reduce level (.unary operator e) pending
  | .operator left operator :: pending =>
    if level ≤ (level? operator.kind).getD 0 then reduce level (combine left operator e) pending
    else (e, .operator left operator :: pending)
  | pending => (e, pending)

/-- Completes all up to the innermost open parenthesis. -/
def collapse (e : Expr) : List Pending → Expr × List Pending
  | .unary operator :: pending => collapse (.unary operator e) pending
  | .operator left operator :: pending => collapse (combine left operator e) pending
  | .assign name :: pending => collapse (.assign name e) pending
  | .group :: pending => (e, .group :: pending)
  | [] => (e, [])

def numberValue (text : List Char) : Float :=
  let whole := text.takeWhile Text.isDigit
  (Decimal.ofDigits whole (text.drop (whole.length + 1))).toFloat

/-- The characters between the quotes of a string. -/
def stringValue (text : List Char) : String := String.ofList (text.drop 1).dropLast

def nameToken (text : List Char) (line : Nat) : Token := .identifier (String.ofList text) line

def operatorToken (k : Kind) (line : Nat) : Token := ⟨k, .text k.symbol, line⟩

def startOperand (outer : Outer) (goal : Goal) (pending : List Pending) (lexeme : Lexeme)
    (line : Nat) : Option State :=
  let found (e : Expr) : Option State := some (.afterOperand outer goal pending e)
  match lexeme.terminal with
  | .number => found (.literal (.number (numberValue lexeme.text)))
  | .string => found (.literal (.text (stringValue lexeme.text)))
  | .keyword .yes => found (.literal (.bool true))
  | .keyword .no => found (.literal (.bool false))
  | .keyword .nothing => found (.literal .null)
  | .name => found (.var (nameToken lexeme.text line))
  | .mark .openParen => some (.operand outer goal (.group :: pending))
  | .operator .not => some (.operand outer goal (.unary (operatorToken .not line) :: pending))
  | .operator .subtract =>
    some (.operand outer goal (.unary (operatorToken .subtract line) :: pending))
  | _ => none

def startStatement (outer : Outer) (lexeme : Lexeme) (line : Nat) : Option State :=
  match lexeme.terminal with
  | .keyword .print => some (.operand outer .print [])
  | .keyword .branch => some (.condition outer .branch)
  | .keyword .loop => some (.condition outer .loop)
  | .mark .openBrace => some (.declaration (outer.push (.block [])))
  | _ => startOperand outer .expression [] lexeme line

/-- Reads a lexeme where a declaration may start or a block may end. -/
def startDeclaration (outer : Outer) (lexeme : Lexeme) (line : Nat) : Option State :=
  match lexeme.terminal with
  | .keyword .declare => some (.declaredName outer)
  | .mark .closeBrace =>
    match outer.frames with
    | .block inner :: frames => some (.afterStatement ⟨frames, outer.done⟩ (.block inner.reverse))
    | _ => none
  | _ => startStatement outer lexeme line

/-- A closing parenthesis ends a group, or the condition of a branch or a loop. -/
def closeParen (outer : Outer) (goal : Goal) (pending : List Pending) (e : Expr) : Option State :=
  match collapse e pending, goal with
  | (e, .group :: pending), _ => some (.afterOperand outer goal pending (.grouping e))
  | (e, []), .branch => some (.statement (outer.push (.yes e)))
  | (e, []), .loop => some (.statement (outer.push (.body e)))
  | _, _ => none

/-- A semicolon ends a declaration or a statement. -/
def closeStatement (outer : Outer) (goal : Goal) (pending : List Pending) (e : Expr) :
    Option State :=
  match collapse e pending, goal with
  | (e, []), .print => some (.afterStatement outer (.print e))
  | (e, []), .expression => some (.afterStatement outer (.expression e))
  | (e, []), .initial name => some (.declaration (outer.add (.declare name (some e))))
  | _, _ => none

def continueOperand (outer : Outer) (goal : Goal) (pending : List Pending) (e : Expr)
    (lexeme : Lexeme) (line : Nat) : Option State :=
  match lexeme.terminal with
  | .mark .assign =>
    (assignable? pending e).map fun name => .operand outer goal (.assign name :: pending)
  | .mark .closeParen => closeParen outer goal pending e
  | .mark .semicolon => closeStatement outer goal pending e
  | .operator k =>
    (level? k).map fun level =>
      let (left, pending) := reduce level e pending
      .operand outer goal (.operator left (operatorToken k line) :: pending)
  | _ => none

/-- Reads a lexeme that starts on a line; none if it cannot follow. -/
def step (state : State) (lexeme : Lexeme) (line : Nat) : Option State :=
  match state with
  | .declaration outer => startDeclaration outer lexeme line
  | .afterStatement outer s =>
    if lexeme.terminal = .keyword .otherwise then
      (Outer.attach? s outer.frames).map fun frames => .statement ⟨frames, outer.done⟩
    else startDeclaration (outer.add s) lexeme line
  | .statement outer => startStatement outer lexeme line
  | .declaredName outer =>
    if lexeme.terminal = .name then
      some (.afterDeclaredName outer (nameToken lexeme.text line))
    else none
  | .afterDeclaredName outer name =>
    match lexeme.terminal with
    | .mark .assign => some (.operand outer (.initial name) [])
    | .mark .semicolon => some (.declaration (outer.add (.declare name none)))
    | _ => none
  | .condition outer goal =>
    if lexeme.terminal = .mark .openParen then some (.operand outer goal []) else none
  | .operand outer goal pending => startOperand outer goal pending lexeme line
  | .afterOperand outer goal pending e => continueOperand outer goal pending e lexeme line

/-- The program that is complete where the text ends. -/
def State.program? : State → Option Program
  | .declaration ⟨[], done⟩ => some ⟨done.reverse⟩
  | .afterStatement outer s =>
    match outer.add s with
    | ⟨[], done⟩ => some ⟨done.reverse⟩
    | _ => none
  | _ => none

inductive SyntaxError where
  | unexpectedEnd (line : Nat)
  | unexpectedToken (text : String) (line : Nat)
  | unexpectedCharacter (c : Char) (line : Nat)
  deriving DecidableEq, Repr

def SyntaxError.line : SyntaxError → Nat
  | .unexpectedEnd line => line
  | .unexpectedToken _ line => line
  | .unexpectedCharacter _ line => line

def SyntaxError.message : SyntaxError → String
  | .unexpectedEnd _ => "Unexpected end of input"
  | .unexpectedToken text line => s!"Unexpected token {Text.quote text} on line {line}"
  | .unexpectedCharacter c line =>
    s!"Unexpected character {Text.quote (String.singleton c)} on line {line}"

/-- The error at the head of a text where no lexeme that may stand there is found. -/
def misplaced (c : Char) (cs : List Char) (line : Nat) : SyntaxError :=
  match anyLexeme? (c :: cs) with
  | some lexeme => .unexpectedToken (String.ofList lexeme.text) line
  | none => .unexpectedCharacter c line

/-- Reads on from a state; `last` is the line of the lexeme before. -/
def parseFrom (state : State) (last line : Nat) (cs : List Char) : Except SyntaxError Program :=
  match _skipped : skip false line cs with
  | (_, []) =>
    match state.program? with
    | some program => .ok program
    | none => .error (.unexpectedEnd last)
  | (here, c :: rest) =>
    match _found : lexeme? state.slot.accepts (c :: rest) with
    | none => .error (misplaced c rest here)
    | some lexeme =>
      match step state lexeme here with
      | none => .error (.unexpectedToken (String.ofList lexeme.text) here)
      | some next =>
        parseFrom next here (here + Text.newlines lexeme.text)
          ((c :: rest).drop lexeme.text.length)
termination_by cs.length
decreasing_by
  have shorter := length_skip_le false line cs
  rw [_skipped] at shorter
  have nonempty := List.length_pos_iff.2 (lexeme?_text_ne_nil _found)
  simp only [List.length_drop, List.length_cons] at shorter ⊢
  omega

def parse (source : String) : Except SyntaxError Program :=
  parseFrom (.declaration ⟨[], []⟩) 1 1 source.toList

end TreeWalk.Source
