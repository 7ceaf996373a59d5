import TreeWalk.Json.Basic

/-!
Names of variables. A name is a text in every program that has a source; a tree from a document may
use any value that is neither a list nor an object. A boolean then counts as zero or one, and a
double without a fraction as an integer.
-/

set_option autoImplicit false

namespace TreeWalk

inductive Name where
  | null
  | whole (n : Int)
  | double (x : Float)
  | text (s : Text)
  deriving DecidableEq

namespace Name

/-- The name of a number: equal numbers are one name. -/
def ofFloat (x : Float) : Name :=
  match Number.truncate? x with
  | some n => if (Number.double x).equal (.whole n) then .whole n else .double x
  | none => .double x

/-- The name that a value is, or the kind of a value that is none. -/
def ofJson : Json → Except String Name
  | .null => .ok .null
  | .bool b => .ok (.whole (if b then 1 else 0))
  | .number (.whole n) => .ok (.whole n)
  | .number (.double x) => .ok (ofFloat x)
  | .text s => .ok (.text s)
  | value => .error value.kind

end Name

end TreeWalk
