import TreeWalk.Number.Layout
import TreeWalk.Tree.Basic

/-!
Values of running programs: null, booleans, numbers and texts. Programs make doubles only, but an
integer counts as the same kind of number.
-/

set_option autoImplicit false

namespace TreeWalk

inductive Value where
  | null
  | bool (b : Bool)
  | number (n : Number)
  | text (s : Text)
  deriving DecidableEq

namespace Value

def ofLiteral : Literal → Value
  | .null => .null
  | .bool b => .bool b
  | .number x => .number (.double x)
  | .text s => .text s

def typeName : Value → String
  | .null => "Null"
  | .bool _ => "Boolean"
  | .number _ => "Number"
  | .text _ => "String"

def isNumber : Value → Bool
  | .number _ => true
  | _ => false

/-- All values but null and false count as true. -/
def truthy : Value → Bool
  | .null => false
  | .bool b => b
  | _ => true

/-- Values of different types differ; numbers are equal if their exact values are. -/
def equal : Value → Value → Bool
  | .null, .null => true
  | .bool a, .bool b => a == b
  | .number a, .number b => a.equal b
  | .text a, .text b => a == b
  | _, _ => false

/-- A number with two places, as it joins a text; none where it is no double. -/
def formatNumber? (n : Number) : Option String := n.toDouble?.map (Number.fixedText 2)

/-- The text of a value; none for an integer that is no double. -/
def text? : Value → Option Text
  | .null => some "null"
  | .bool b => some (if b then "true" else "false")
  | .number n => n.toDouble?.map fun x => Number.text x
  | .text s => some s

end Value

end TreeWalk
