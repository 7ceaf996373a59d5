import TreeWalk.Report
import TreeWalk.Scope.Forest

/-!
Operations on scopes, one after the other. Each of them is answered, and leaves the scopes as they
are unless it makes a scope or binds a name. Assigning to a name that is bound nowhere, and reading
one strictly, is refused with a report.
-/

set_option autoImplicit false

namespace TreeWalk

inductive Operation where
  | new (parent : Option ScopeId)
  | define (scope : ScopeId) (name : Text) (value : Value)
  | assign (scope : ScopeId) (name : Text) (value : Value) (line : Option Int)
  | get (scope : ScopeId) (name : Text) (strict : Bool)
  | isDefined (scope : ScopeId) (name : Text)
  | resolve (scope : ScopeId) (name : Text)
  deriving DecidableEq

inductive Answer where
  | done
  | scope (id : Option ScopeId)
  | value (v : Value)
  | flag (b : Bool)
  | refused (r : Report)
  deriving DecidableEq

def Operation.name? : Operation → Option Text
  | .new _ => none
  | .define _ name _ => some name
  | .assign _ name _ _ => some name
  | .get _ name _ => some name
  | .isDefined _ name => some name
  | .resolve _ name => some name

namespace Forest

/-- What is answered to an operation. A name that is bound nowhere is read as null, if not
strictly. -/
def answer (f : Forest) : Operation → Answer
  | .new _ => .scope (some f.size)
  | .define .. => .done
  | .assign scope name _ line =>
    match f.resolve scope (.text name) with
    | some _ => .done
    | none => .refused (.undefinedVariable name line)
  | .get scope name strict =>
    match f.get? scope (.text name) with
    | some v => .value v
    | none => if strict then .refused (.undefinedVariable name none) else .value .null
  | .isDefined scope name => .flag (f.resolve scope (.text name)).isSome
  | .resolve scope name => .scope (f.resolve scope (.text name))

def perform (f : Forest) : Operation → Forest
  | .new parent => f.push parent
  | .define scope name value => f.define scope (.text name) value
  | .assign scope name value _ => (f.assign? scope (.text name) value).getD f
  | .get .. => f
  | .isDefined .. => f
  | .resolve .. => f

def performAll (f : Forest) (operations : List Operation) : Forest := operations.foldl perform f

/-- Operations with their answers. -/
def transcript (f : Forest) : List Operation → List (Operation × Answer)
  | [] => []
  | operation :: rest => (operation, f.answer operation) :: (f.perform operation).transcript rest

end Forest

end TreeWalk
