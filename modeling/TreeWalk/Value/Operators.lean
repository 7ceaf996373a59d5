import TreeWalk.Report
import TreeWalk.Value.Basic

/-!
The operators on values. Arithmetic is that of doubles, an integer being converted first; numbers
are compared by their exact values; a number joins a text with two places.
-/

set_option autoImplicit false

namespace TreeWalk

/-- The value, or the fault of an integer that is no double. -/
def orTooLarge {α : Type} : Option α → Except Fault α
  | some a => .ok a
  | none => .error .numberTooLarge

namespace Value

def toText (v : Value) : Except Fault Text := orTooLarge v.text?

/-- The double that a value is converted to: a boolean counts as zero or one, a text is read. -/
def toDouble : Value → Except Fault Float
  | .null => .error (.notConvertible Json.null.kind)
  | .bool b => .ok (if b then 1 else 0)
  | .number n => orTooLarge n.toDouble?
  | .text s =>
    match Numeral.readFloat? s.escaped with
    | some x => .ok x
    | none => .error (.notANumeral s)

def format (v : Value) : Except Fault String := do return Number.fixedText 2 (← v.toDouble)

def divide (a b : Value) : Except Fault Value := do
  return .number (.double ((← a.toDouble) / (← b.toDouble)))

/-- The error of an operator whose operands have the wrong types. -/
def mistyped {α : Type} (operator : Token) (detail : Text) : Except Fault α :=
  .error (.report (.typeError operator.line detail))

def applyUnary (operator : Token) (operand : Value) : Except Fault Value :=
  match operator.kind, operand with
  | .not, .bool b => .ok (.bool !b)
  | .subtract, .number n => do return .number (.double (-(← orTooLarge n.toDouble?)))
  | _, _ => do mistyped operator (operator.display ++ (← operand.toText))

/-- What an operator does with two numbers; none for one that is not about numbers. -/
def onNumbers? (kind : Kind) (a b : Number) : Option (Except Fault Value) :=
  let arithmetic (f : Float → Float → Float) : Except Fault Value := do
    return .number (.double (f (← orTooLarge a.toDouble?) (← orTooLarge b.toDouble?)))
  match kind with
  | .add => some (arithmetic (· + ·))
  | .subtract => some (arithmetic (· - ·))
  | .multiply => some (arithmetic (· * ·))
  | .divide => some (arithmetic (· / ·))
  | .greater => some (.ok (.bool (b.less a)))
  | .greaterEqual => some (.ok (.bool (b.lessEqual a)))
  | .less => some (.ok (.bool (a.less b)))
  | .lessEqual => some (.ok (.bool (a.lessEqual b)))
  | _ => none

/-- The operators that ask for two numbers. -/
def needsNumbers : Kind → Bool
  | .add | .subtract | .multiply | .divide | .greater | .greaterEqual | .less | .lessEqual => true
  | _ => false

/-- The error of two operands that do not go with an operator. -/
def mismatch (operator : Token) (a b : Value) : Except Fault Value := do
  mistyped operator ((← a.toText) ++ operator.display ++ (← b.toText))

def applyBinary (operator : Token) (a b : Value) : Except Fault Value :=
  match operator.kind, a, b with
  | .equal, a, b => .ok (.bool (a.equal b))
  | .notEqual, a, b => .ok (.bool !(a.equal b))
  | .add, .text s, .text t => .ok (.text (s ++ t))
  | .add, .number n, .text t => do return .text ((← orTooLarge (formatNumber? n)) ++ t)
  | .add, .text s, .number n => do return .text (s ++ (← orTooLarge (formatNumber? n)))
  | kind, .number n, .number m =>
    match onNumbers? kind n m with
    | some result => result
    | none => mistyped operator ("unsupported operator " ++ operator.display)
  | kind, a, b =>
    if needsNumbers kind then mismatch operator a b
    else mistyped operator ("unsupported operator " ++ operator.display)

end Value

end TreeWalk
