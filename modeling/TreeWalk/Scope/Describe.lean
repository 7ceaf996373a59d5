import TreeWalk.Scope.Forest

/-!
A short description of a scope: how deep it is and the names it binds, in order.
-/

set_option autoImplicit false

namespace TreeWalk

/-- A name as messages show it. -/
def Name.quoted : Name → String
  | .null => Json.null.quoted
  | .whole n => (Json.number (.whole n)).quoted
  | .double x => (Json.number (.double x)).quoted
  | .text s => (Json.text s).quoted

/-- The order of names: that of their characters' code points. -/
def Name.before : Name → Name → Bool
  | .text a, .text b => a.before b
  | _, _ => true

namespace Forest

def describe (f : Forest) (id : ScopeId) : String :=
  let names := ((f.bindings id).map Prod.fst).mergeSort Name.before
  s!"<Environment depth={f.depth id} names=[{Json.joined (names.map Name.quoted)}]>"

end Forest

end TreeWalk
