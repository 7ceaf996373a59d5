import TreeWalk.Scope.Name
import TreeWalk.Value.Basic

/-!
Scopes. A scope binds names to values and has a parent unless it is an outermost one. A name is
looked up from a scope outward and belongs to the first scope that binds it; a declaration binds it
in the scope itself. Scopes are numbered in the order in which they are made, so a parent has a
smaller number than its children.
-/

set_option autoImplicit false

namespace TreeWalk

abbrev ScopeId := Nat

/-- The variables of a scope, oldest first. -/
abbrev Bindings := List (Name × Value)

namespace Bindings

def get? (name : Name) : Bindings → Option Value
  | [] => none
  | (n, v) :: rest => if n = name then some v else get? name rest

def binds (b : Bindings) (name : Name) : Bool := (b.get? name).isSome

/-- Binds a name; a name that is bound keeps its place. -/
def set (name : Name) (value : Value) : Bindings → Bindings
  | [] => [(name, value)]
  | (n, v) :: rest => if n = name then (n, value) :: rest else (n, v) :: set name value rest

theorem get?_set_self (name : Name) (value : Value) (b : Bindings) :
    (b.set name value).get? name = some value := by
  induction b with
  | nil => simp [set, get?]
  | cons entry rest ih => by_cases h : entry.1 = name <;> simp [set, get?, h, ih]

theorem get?_set_of_ne {name other : Name} (h : other ≠ name) (value : Value) (b : Bindings) :
    (b.set name value).get? other = b.get? other := by
  induction b with
  | nil => simp [set, get?, h.symm]
  | cons entry rest ih =>
    by_cases he : entry.1 = name
    · simp [set, get?, he, h.symm]
    · simp [set, get?, he, ih]

end Bindings

structure Scope where
  parent : Option ScopeId
  bindings : Bindings

structure Forest where
  scopes : Array Scope
  /-- A parent is older than its children. -/
  older : ∀ (i : Nat) (h : i < scopes.size) (p : ScopeId), scopes[i].parent = some p → p < i

namespace Forest

def empty : Forest := ⟨#[], by simp⟩

def single (bindings : Bindings) : Forest :=
  ⟨#[⟨none, bindings⟩], by
    intro i h p hp
    have : i = 0 := by simpa using h
    subst this
    simp at hp⟩

def size (f : Forest) : Nat := f.scopes.size

/-- The parent of a new scope; a number that no scope has counts as none. -/
def validParent (f : Forest) (parent : Option ScopeId) : Option ScopeId :=
  parent.filter (· < f.size)

/-- Makes a scope; its number is the size that the forest had. -/
def push (f : Forest) (parent : Option ScopeId) : Forest where
  scopes := f.scopes.push ⟨f.validParent parent, []⟩
  older := by
    intro i h p hp
    simp only [Array.size_push] at h
    by_cases last : i = f.scopes.size
    · subst last
      simp only [Array.getElem_push_eq, validParent, Option.filter_eq_some_iff,
        decide_eq_true_eq] at hp
      exact hp.2
    · have inside : i < f.scopes.size := by omega
      rw [Array.getElem_push_lt inside] at hp
      exact f.older i inside p hp

def bindings (f : Forest) (id : ScopeId) : Bindings :=
  match f.scopes[id]? with
  | some scope => scope.bindings
  | none => []

def modify (f : Forest) (id : ScopeId) (g : Bindings → Bindings) : Forest where
  scopes := f.scopes.modify id fun scope => { scope with bindings := g scope.bindings }
  older := by
    intro i h p hp
    have inside : i < f.scopes.size := by simpa using h
    apply f.older i inside p
    rw [Array.getElem_modify] at hp
    split at hp
    · next same => subst same; simpa using hp
    · exact hp

/-- A scope and those around it, innermost first. -/
def chain (f : Forest) (id : ScopeId) : List ScopeId :=
  if h : id < f.scopes.size then
    match parent : f.scopes[id].parent with
    | none => [id]
    | some p => id :: f.chain p
  else []
termination_by id
decreasing_by exact f.older id h p parent

/-- How many scopes are around a scope. -/
def depth (f : Forest) (id : ScopeId) : Nat := (f.chain id).length - 1

/-- The nearest scope that binds a name. -/
def resolve (f : Forest) (id : ScopeId) (name : Name) : Option ScopeId :=
  (f.chain id).find? fun scope => (f.bindings scope).binds name

/-- The value of a name as a scope sees it. -/
def get? (f : Forest) (id : ScopeId) (name : Name) : Option Value :=
  (f.resolve id name).bind fun scope => (f.bindings scope).get? name

/-- Binds a name in the scope itself. -/
def define (f : Forest) (id : ScopeId) (name : Name) (value : Value) : Forest :=
  f.modify id (Bindings.set name value)

/-- Gives a new value to a name where it is bound; none if it is not. -/
def assign? (f : Forest) (id : ScopeId) (name : Name) (value : Value) : Option Forest :=
  (f.resolve id name).map fun scope => f.define scope name value

end Forest

end TreeWalk
