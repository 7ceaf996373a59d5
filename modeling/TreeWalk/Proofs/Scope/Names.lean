import Mathlib.Data.List.Basic
import TreeWalk.Scope.Forest

/-!
Names in scopes. A new scope binds no names and leaves the others as they are. Binding a name adds
it to one scope at most, and to none where it is bound already, and leaves the other names alone. So
the scopes around a place can be told by the names that each of them binds, and the scope that a
name belongs to by how many scopes outward it is.
-/

set_option autoImplicit false

namespace TreeWalk

theorem Bindings.get?_set (b : Bindings) (name other : Name) (value : Value) :
    (b.set name value).get? other = if other = name then some value else b.get? other := by
  split
  · next same => rw [same, get?_set_self]
  · next distinct => exact get?_set_of_ne distinct value b

theorem Bindings.binds_set (b : Bindings) (name other : Name) (value : Value) :
    (b.set name value).binds other = (decide (other = name) || b.binds other) := by
  by_cases same : other = name
  · subst same
    simp [binds, get?_set_self]
  · simp [binds, get?_set_of_ne same, same]

namespace Forest

def parent? (f : Forest) (id : ScopeId) : Option ScopeId := f.scopes[id]?.bind Scope.parent

theorem parent?_lt {f : Forest} {id p : ScopeId} (h : f.parent? id = some p) : p < id := by
  obtain ⟨scope, found, parent⟩ := Option.bind_eq_some_iff.1 h
  obtain ⟨inside, rfl⟩ := Array.getElem?_eq_some_iff.1 found
  exact f.older id inside p parent

/-- A scope, and then those around its parent. -/
theorem chain_eq {f : Forest} {id : ScopeId} (inside : id < f.size) :
    f.chain id = id :: (f.parent? id).elim [] f.chain := by
  have within : id < f.scopes.size := inside
  rw [chain, dif_pos within, parent?, Array.getElem?_eq_getElem within, Option.bind_some]
  split
  · next parent => rw [parent]; rfl
  · next p parent => rw [parent]; rfl

theorem chain_of_le {f : Forest} {id : ScopeId} (outside : f.size ≤ id) : f.chain id = [] := by
  unfold chain
  exact dif_neg (Nat.not_lt.2 outside)

theorem chain_congr {f f' : Forest} {bound : Nat} (le : bound ≤ f.size) (le' : bound ≤ f'.size)
    (parents : ∀ id < bound, f'.parent? id = f.parent? id) {id : ScopeId} (inside : id < bound) :
    f'.chain id = f.chain id := by
  induction id using Nat.strongRecOn with
  | ind id ih =>
    rw [chain_eq (Nat.lt_of_lt_of_le inside le), chain_eq (Nat.lt_of_lt_of_le inside le'),
      parents id inside]
    cases parent : f.parent? id with
    | none => rfl
    | some p =>
      have below := parent?_lt parent
      rw [Option.elim_some, Option.elim_some, ih p below (Nat.lt_trans below inside)]

theorem bindings_define (f : Forest) (id other : ScopeId) (name : Name) (value : Value) :
    (f.define id name value).bindings other =
      if id = other ∧ id < f.size then (f.bindings other).set name value
      else f.bindings other := by
  unfold define modify bindings size
  rw [Array.getElem?_modify]
  by_cases same : id = other
  · subst same
    rw [if_pos rfl]
    by_cases inside : id < f.scopes.size
    · rw [if_pos ⟨rfl, inside⟩, Array.getElem?_eq_getElem inside]
      rfl
    · rw [if_neg (fun both => inside both.2), Array.getElem?_eq_none (Nat.le_of_not_lt inside)]
      rfl
  · rw [if_neg same, if_neg (fun both => same both.1)]

theorem size_define (f : Forest) (id : ScopeId) (name : Name) (value : Value) :
    (f.define id name value).size = f.size := by
  simp [define, modify, size]

theorem parent?_define (f : Forest) (id other : ScopeId) (name : Name) (value : Value) :
    (f.define id name value).parent? other = f.parent? other := by
  unfold define modify parent?
  rw [Array.getElem?_modify]
  split
  · cases f.scopes[other]? <;> rfl
  · rfl

theorem size_push (f : Forest) (parent : Option ScopeId) : (f.push parent).size = f.size + 1 := by
  simp [push, size]

theorem parent?_push (f : Forest) (parent : Option ScopeId) (id : ScopeId) :
    (f.push parent).parent? id = if id = f.size then f.validParent parent else f.parent? id := by
  unfold parent? push size
  rw [Array.getElem?_push]
  by_cases last : id = f.scopes.size
  · rw [if_pos last, if_pos last]
    rfl
  · rw [if_neg last, if_neg last]

theorem bindings_push (f : Forest) (parent : Option ScopeId) (id : ScopeId) :
    (f.push parent).bindings id = if id = f.size then [] else f.bindings id := by
  unfold bindings push size
  rw [Array.getElem?_push]
  by_cases last : id = f.scopes.size
  · rw [if_pos last, if_pos last]
  · rw [if_neg last, if_neg last]

theorem parent?_push_self {f : Forest} {env : ScopeId} (inside : env < f.size) :
    (f.push (some env)).parent? f.size = some env := by
  rw [parent?_push, if_pos rfl, validParent, Option.filter_some, if_pos (decide_eq_true inside)]

/-- Forests of as many scopes with the same parents, where the variables of each scope go together
in some way. -/
structure Alike (B : Bindings → Bindings → Prop) (f f' : Forest) : Prop where
  size : f.size = f'.size
  parents : ∀ id, f.parent? id = f'.parent? id
  values : ∀ id, B (f.bindings id) (f'.bindings id)

section

variable {B : Bindings → Bindings → Prop} {f f' : Forest}

theorem alike_single (none : B [] []) {globals globals' : Bindings} (same : B globals globals') :
    Alike B (single globals) (single globals') where
  size := rfl
  parents := by
    intro id
    cases id with
    | zero => rfl
    | succ id => rfl
  values := by
    intro id
    cases id with
    | zero => exact same
    | succ id => exact none

theorem Alike.chain (alike : Alike B f f') (id : ScopeId) : f.chain id = f'.chain id := by
  by_cases inside : id < f'.size
  · exact chain_congr (Nat.le_refl _) (Nat.le_of_eq alike.size.symm) (fun id _ => alike.parents id)
      inside
  · have outside := Nat.le_of_not_lt inside
    rw [chain_of_le outside, chain_of_le (Nat.le_trans (Nat.le_of_eq alike.size) outside)]

theorem Alike.depth (alike : Alike B f f') (id : ScopeId) : f.depth id = f'.depth id := by
  rw [Forest.depth, Forest.depth, alike.chain]

theorem Alike.resolve (alike : Alike B f f') (id : ScopeId) {name name' : Name}
    (same : ∀ b b', B b b' → b.get? name = b'.get? name') :
    f.resolve id name = f'.resolve id name' := by
  have bound : (fun scope => (f.bindings scope).binds name) =
      fun scope => (f'.bindings scope).binds name' := by
    funext scope
    rw [Bindings.binds, Bindings.binds, same _ _ (alike.values scope)]
  rw [Forest.resolve, Forest.resolve, alike.chain, bound]

theorem Alike.get? (alike : Alike B f f') (id : ScopeId) {name name' : Name}
    (same : ∀ b b', B b b' → b.get? name = b'.get? name') : f.get? id name = f'.get? id name' := by
  have value : (fun scope => (f.bindings scope).get? name) =
      fun scope => (f'.bindings scope).get? name' :=
    funext fun scope => same _ _ (alike.values scope)
  rw [Forest.get?, Forest.get?, alike.resolve id same, value]

theorem Alike.define (alike : Alike B f f') (scope : ScopeId) {name name' : Name} {value : Value}
    (set : ∀ b b', B b b' → B (b.set name value) (b'.set name' value)) :
    Alike B (f.define scope name value) (f'.define scope name' value) where
  size := by rw [size_define, size_define, alike.size]
  parents := by
    intro id
    rw [parent?_define, parent?_define, alike.parents]
  values := by
    intro id
    rw [bindings_define, bindings_define, alike.size]
    split
    · exact set _ _ (alike.values id)
    · exact alike.values id

theorem Alike.push (alike : Alike B f f') (none : B [] []) (parent : Option ScopeId) :
    Alike B (f.push parent) (f'.push parent) where
  size := by rw [size_push, size_push, alike.size]
  parents := by
    intro id
    rw [parent?_push, parent?_push, validParent, validParent, alike.size, alike.parents]
  values := by
    intro id
    rw [bindings_push, bindings_push, alike.size]
    split
    · exact none
    · exact alike.values id

end

/-- Forests of scopes that stand in each other alike and agree on the names that are known. -/
structure Agree (known : Name → Prop) (f f' : Forest) : Prop where
  size : f.size = f'.size
  parents : ∀ id, f.parent? id = f'.parent? id
  values : ∀ id name, known name → (f.bindings id).get? name = (f'.bindings id).get? name

section

variable {known : Name → Prop} {f f' : Forest}

theorem agree_iff_alike : Agree known f f' ↔
    Alike (fun b b' => ∀ name, known name → b.get? name = b'.get? name) f f' := by
  constructor
  · intro agree
    exact ⟨agree.size, agree.parents, agree.values⟩
  · intro alike
    exact ⟨alike.size, alike.parents, alike.values⟩

theorem agree_single {globals globals' : Bindings}
    (same : ∀ name, known name → globals.get? name = globals'.get? name) :
    Agree known (single globals) (single globals') :=
  agree_iff_alike.2 (alike_single (fun _ _ => rfl) same)

theorem Agree.depth (agree : Agree known f f') (id : ScopeId) : f.depth id = f'.depth id :=
  (agree_iff_alike.1 agree).depth id

theorem Agree.resolve (agree : Agree known f f') (id : ScopeId) {name : Name}
    (inside : known name) : f.resolve id name = f'.resolve id name :=
  (agree_iff_alike.1 agree).resolve id fun _ _ same => same name inside

theorem Agree.get? (agree : Agree known f f') (id : ScopeId) {name : Name} (inside : known name) :
    f.get? id name = f'.get? id name :=
  (agree_iff_alike.1 agree).get? id fun _ _ same => same name inside

theorem Agree.define (agree : Agree known f f') (scope : ScopeId) (key : Name) (value : Value) :
    Agree known (f.define scope key value) (f'.define scope key value) := by
  rw [agree_iff_alike] at agree ⊢
  apply agree.define scope
  intro b b' same name inside
  rw [Bindings.get?_set, Bindings.get?_set, same name inside]

theorem Agree.push (agree : Agree known f f') (parent : Option ScopeId) :
    Agree known (f.push parent) (f'.push parent) :=
  agree_iff_alike.2 ((agree_iff_alike.1 agree).push (fun _ _ => rfl) parent)

end

/-- Scopes are added, and names only to one scope and only these. -/
structure Grows (env : ScopeId) (gained : List Name) (f f' : Forest) : Prop where
  size : f.size ≤ f'.size
  parents : ∀ id < f.size, f'.parent? id = f.parent? id
  keeps : ∀ id < f.size, ∀ name, (f.bindings id).binds name = true →
    (f'.bindings id).binds name = true
  gains : ∀ id < f.size, ∀ name, (f'.bindings id).binds name = true →
    (f.bindings id).binds name = true ∨ id = env ∧ name ∈ gained

theorem Grows.refl (env : ScopeId) (gained : List Name) (f : Forest) : Grows env gained f f :=
  ⟨Nat.le_refl _, fun _ _ => rfl, fun _ _ _ bound => bound, fun _ _ _ bound => .inl bound⟩

theorem Grows.trans {env : ScopeId} {gained : List Name} {f f' f'' : Forest}
    (first : Grows env gained f f') (second : Grows env gained f' f'') :
    Grows env gained f f'' where
  size := Nat.le_trans first.size second.size
  parents := by
    intro id inside
    rw [second.parents id (Nat.lt_of_lt_of_le inside first.size), first.parents id inside]
  keeps := by
    intro id inside name bound
    exact second.keeps id (Nat.lt_of_lt_of_le inside first.size) name
      (first.keeps id inside name bound)
  gains := by
    intro id inside name bound
    rcases second.gains id (Nat.lt_of_lt_of_le inside first.size) name bound with before | new
    · exact first.gains id inside name before
    · exact .inr new

theorem Grows.mono {env : ScopeId} {gained gained' : List Name} {f f' : Forest}
    (grows : Grows env gained f f') (subset : gained ⊆ gained') : Grows env gained' f f' where
  size := grows.size
  parents := grows.parents
  keeps := grows.keeps
  gains := fun id inside name bound =>
    (grows.gains id inside name bound).imp_right fun new => ⟨new.1, subset new.2⟩

theorem grows_define {f : Forest} {env scope : ScopeId} {gained : List Name} {name : Name}
    (known : (f.bindings scope).binds name = true ∨ scope = env ∧ name ∈ gained) (value : Value) :
    Grows env gained f (f.define scope name value) where
  size := Nat.le_of_eq (size_define f scope name value).symm
  parents := fun id _ => parent?_define f scope id name value
  keeps := by
    intro id _ other bound
    rw [bindings_define]
    split
    · rw [Bindings.binds_set, bound, Bool.or_true]
    · exact bound
  gains := by
    intro id _ other bound
    rw [bindings_define] at bound
    split at bound
    · next same =>
      obtain ⟨rfl, -⟩ := same
      rw [Bindings.binds_set, Bool.or_eq_true, decide_eq_true_eq] at bound
      rcases bound with rfl | before
      · exact known
      · exact .inl before
    · exact .inl bound

theorem grows_push (f : Forest) (parent : Option ScopeId) (env : ScopeId) (gained : List Name) :
    Grows env gained f (f.push parent) where
  size := by
    rw [size_push]
    exact Nat.le_succ _
  parents := by
    intro id inside
    rw [parent?_push, if_neg (Nat.ne_of_lt inside)]
  keeps := by
    intro id inside name bound
    rwa [bindings_push, if_neg (Nat.ne_of_lt inside)]
  gains := by
    intro id inside name bound
    rw [bindings_push, if_neg (Nat.ne_of_lt inside)] at bound
    exact .inl bound

/-- What a new scope gains is not seen around it. -/
theorem Grows.of_push {f f' : Forest} {env : ScopeId} {parent : Option ScopeId}
    {gained : List Name} (grows : Grows f.size gained (f.push parent) f') : Grows env [] f f' := by
  have first := grows_push f parent env []
  have inside {id : ScopeId} (h : id < f.size) : id < (f.push parent).size :=
    Nat.lt_of_lt_of_le h first.size
  refine ⟨Nat.le_trans first.size grows.size, ?_, ?_, ?_⟩
  · intro id h
    rw [grows.parents id (inside h), first.parents id h]
  · intro id h name bound
    exact grows.keeps id (inside h) name (first.keeps id h name bound)
  · intro id h name bound
    rcases grows.gains id (inside h) name bound with before | ⟨rfl, -⟩
    · exact first.gains id h name before
    · exact absurd h (Nat.lt_irrefl _)

theorem Grows.chain {f f' : Forest} {env : ScopeId} {gained : List Name}
    (grows : Grows env gained f f') {id : ScopeId} (inside : id < f.size) :
    f'.chain id = f.chain id :=
  chain_congr (Nat.le_refl _) grows.size grows.parents inside

/-- A scope that gains nothing binds the same names. -/
theorem Grows.binds_eq {f f' : Forest} {env : ScopeId} {gained : List Name}
    (grows : Grows env gained f f') {id : ScopeId} (inside : id < f.size)
    (spared : ∀ name ∈ gained, id ≠ env) (name : Name) :
    (f'.bindings id).binds name = (f.bindings id).binds name := by
  rw [Bool.eq_iff_iff]
  constructor
  · intro bound
    rcases grows.gains id inside name bound with before | ⟨same, new⟩
    · exact before
    · exact absurd same (spared name new)
  · exact grows.keeps id inside name

/-- A scope stands where it stood, and binds the same names. -/
structure Keeps (f f' : Forest) (id : ScopeId) : Prop where
  chain : f'.chain id = f.chain id
  names : ∀ name, (f'.bindings id).binds name = (f.bindings id).binds name

theorem Grows.scope {f f' : Forest} {env : ScopeId} {gained : List Name}
    (grows : Grows env gained f f') {id : ScopeId} (inside : id < f.size)
    (spared : ∀ name ∈ gained, id ≠ env) : f.Keeps f' id :=
  ⟨grows.chain inside, grows.binds_eq inside spared⟩

/-- Scopes grow, and no names but the targets get other values. -/
structure Writes (env : ScopeId) (gained targets : List Name) (f f' : Forest) : Prop
    extends Grows env gained f f' where
  spares : ∀ id < f.size, ∀ name ∉ targets,
    (f'.bindings id).get? name = (f.bindings id).get? name

theorem Writes.refl (env : ScopeId) (gained targets : List Name) (f : Forest) :
    Writes env gained targets f f :=
  ⟨.refl env gained f, fun _ _ _ _ => rfl⟩

theorem Writes.trans {env : ScopeId} {gained targets : List Name} {f f' f'' : Forest}
    (first : Writes env gained targets f f') (second : Writes env gained targets f' f'') :
    Writes env gained targets f f'' where
  toGrows := first.toGrows.trans second.toGrows
  spares := by
    intro id inside name other
    rw [second.spares id (Nat.lt_of_lt_of_le inside first.size) name other,
      first.spares id inside name other]

theorem Writes.mono {env : ScopeId} {gained gained' targets : List Name} {f f' : Forest}
    (writes : Writes env gained targets f f') (subset : gained ⊆ gained') :
    Writes env gained' targets f f' :=
  ⟨writes.toGrows.mono subset, writes.spares⟩

theorem writes_define {f : Forest} {env scope : ScopeId} {gained targets : List Name} {name : Name}
    (known : (f.bindings scope).binds name = true ∨ scope = env ∧ name ∈ gained)
    (target : name ∈ targets) (value : Value) :
    Writes env gained targets f (f.define scope name value) where
  toGrows := grows_define known value
  spares := by
    intro id _ other spared
    have distinct : other ≠ name := fun same => spared (by rwa [same])
    rw [bindings_define]
    split
    · exact Bindings.get?_set_of_ne distinct value _
    · rfl

theorem Writes.of_push {f f' : Forest} {env : ScopeId} {parent : Option ScopeId}
    {gained targets : List Name} (writes : Writes f.size gained targets (f.push parent) f') :
    Writes env [] targets f f' where
  toGrows := writes.toGrows.of_push
  spares := by
    intro id inside name spared
    have still : id < (f.push parent).size := by
      rw [size_push]
      exact Nat.lt_succ_of_lt inside
    rw [writes.spares id still name spared, bindings_push, if_neg (Nat.ne_of_lt inside)]

/-- The names that a scope and those around it bind, innermost first. -/
inductive Mirrors (f : Forest) : ScopeId → List (List Name) → Prop where
  | outermost {id : ScopeId} {names : List Name} (inside : id < f.size)
    (top : f.parent? id = none)
    (binds : ∀ name, (f.bindings id).binds name = true ↔ name ∈ names) : Mirrors f id [names]
  | inner {id p : ScopeId} {names : List Name} {around : List (List Name)} (inside : id < f.size)
    (parent : f.parent? id = some p)
    (binds : ∀ name, (f.bindings id).binds name = true ↔ name ∈ names)
    (outer : Mirrors f p around) : Mirrors f id (names :: around)

theorem Mirrors.inside {f : Forest} {env : ScopeId} {around : List (List Name)}
    (mirrors : Mirrors f env around) : env < f.size := by
  cases mirrors with
  | outermost inside => exact inside
  | inner inside => exact inside

theorem mirrors_single : Mirrors (single []) 0 [[]] :=
  .outermost (by decide) rfl fun name => by simp [single, bindings, Bindings.binds, Bindings.get?]

theorem Grows.mirrors {f f' : Forest} {env env' : ScopeId} {around : List (List Name)}
    (grows : Grows env' [] f f') (mirrors : Mirrors f env around) : Mirrors f' env around := by
  have same {id : ScopeId} (h : id < f.size) (name : Name) :
      (f'.bindings id).binds name = true ↔ (f.bindings id).binds name = true := by
    rw [grows.binds_eq h nofun]
  induction mirrors with
  | outermost inside top binds =>
    exact .outermost (Nat.lt_of_lt_of_le inside grows.size) ((grows.parents _ inside).trans top)
      fun name => (same inside name).trans (binds name)
  | inner inside parent binds _ ih =>
    exact .inner (Nat.lt_of_lt_of_le inside grows.size) ((grows.parents _ inside).trans parent)
      (fun name => (same inside name).trans (binds name)) ih

/-- A declaration is not seen further out. -/
theorem Mirrors.define_inner {f : Forest} {env id : ScopeId} {around : List (List Name)}
    (mirrors : Mirrors f id around) (below : id < env) (name : Name) (value : Value) :
    Mirrors (f.define env name value) id around := by
  have same {id : ScopeId} (h : id < env) :
      (f.define env name value).bindings id = f.bindings id := by
    rw [bindings_define, if_neg fun both => Nat.ne_of_gt h both.1]
  induction mirrors with
  | outermost inside top binds =>
    refine .outermost (by rwa [size_define]) (by rwa [parent?_define]) ?_
    rwa [same below]
  | inner inside parent binds _ ih =>
    refine .inner (by rwa [size_define]) (by rwa [parent?_define]) ?_
      (ih (Nat.lt_trans (parent?_lt parent) below))
    rwa [same below]

theorem Mirrors.define {f : Forest} {env : ScopeId} {names : List Name}
    {around : List (List Name)} (mirrors : Mirrors f env (names :: around)) (name : Name)
    (value : Value) : Mirrors (f.define env name value) env ((name :: names) :: around) := by
  have bound (binds : ∀ other, (f.bindings env).binds other = true ↔ other ∈ names)
      (inside : env < f.size) (other : Name) :
      ((f.define env name value).bindings env).binds other = true ↔ other ∈ name :: names := by
    rw [bindings_define, if_pos ⟨rfl, inside⟩, Bindings.binds_set, Bool.or_eq_true,
      decide_eq_true_eq, binds, List.mem_cons]
  cases mirrors with
  | outermost inside top binds =>
    exact .outermost (by rwa [size_define]) (by rwa [parent?_define]) (bound binds inside)
  | inner inside parent binds outer =>
    exact .inner (by rwa [size_define]) (by rwa [parent?_define]) (bound binds inside)
      (outer.define_inner (parent?_lt parent) name value)

theorem Mirrors.push {f : Forest} {env : ScopeId} {around : List (List Name)}
    (mirrors : Mirrors f env around) : Mirrors (f.push (some env)) f.size ([] :: around) := by
  refine .inner (by rw [size_push]; exact Nat.lt_succ_self _) (parent?_push_self mirrors.inside) ?_
    ((grows_push f (some env) env []).mirrors mirrors)
  intro name
  rw [bindings_push, if_pos rfl]
  simp [Bindings.binds, Bindings.get?]

/-- How many scopes outward a name is bound; none if it is not. -/
def hops (f : Forest) (id : ScopeId) (name : Name) : Option Nat :=
  (f.chain id).findIdx? fun scope => (f.bindings scope).binds name

/-- The scope that a name belongs to is so many scopes outward. -/
theorem resolve_eq_hops (f : Forest) (id : ScopeId) (name : Name) :
    f.resolve id name = (f.hops id name).bind fun n => (f.chain id)[n]? := by
  rw [resolve, hops]
  exact List.find?_eq_bind_findIdx?_getElem?

theorem Mirrors.hops {f : Forest} {env : ScopeId} {around : List (List Name)}
    (mirrors : Mirrors f env around) (name : Name) :
    f.hops env name = around.findIdx? fun names => names.contains name := by
  have same {id : ScopeId} {names : List Name}
      (binds : ∀ name, (f.bindings id).binds name = true ↔ name ∈ names) :
      (f.bindings id).binds name = names.contains name := by
    rw [Bool.eq_iff_iff, binds, List.contains_iff_mem]
  induction mirrors with
  | outermost inside top binds =>
    rw [Forest.hops, chain_eq inside, top, Option.elim_none, List.findIdx?_cons,
      List.findIdx?_cons, same binds]
    rfl
  | inner inside parent binds _ ih =>
    rw [Forest.hops] at ih ⊢
    rw [chain_eq inside, parent, Option.elim_some, List.findIdx?_cons, List.findIdx?_cons,
      same binds, ih]

end Forest

end TreeWalk
