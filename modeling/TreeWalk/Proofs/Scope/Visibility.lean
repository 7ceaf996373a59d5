import TreeWalk.Proofs.Scope.Names
import TreeWalk.Scope.Operation

/-!
Who sees a write. The walk from a scope outward ends, and a name is seen where the walk first meets
it. An assignment is seen from every scope that sees the same variable, and from no other one; it
never changes where a name is found. A declaration is seen from the scopes inside of its own that do
not meet the name on the way to it.
-/

set_option autoImplicit false

namespace TreeWalk.Forest

/-- The scope so many steps outward; none if the walk ends before. -/
def outward (f : Forest) (id : ScopeId) : Nat → Option ScopeId
  | 0 => some id
  | k + 1 => (f.parent? id).bind fun p => f.outward p k

theorem parent?_inside {f : Forest} {id p : ScopeId} (inside : id < f.size)
    (parent : f.parent? id = some p) : p < f.size :=
  Nat.lt_trans (parent?_lt parent) inside

/-- The chain of a scope is what the walk from it meets. -/
theorem getElem?_chain {f : Forest} {id : ScopeId} (inside : id < f.size) (k : Nat) :
    (f.chain id)[k]? = f.outward id k := by
  induction k generalizing id with
  | zero => rw [chain_eq inside, List.getElem?_cons_zero, outward]
  | succ k ih =>
    rw [chain_eq inside, List.getElem?_cons_succ, outward]
    cases parent : f.parent? id with
    | none => rfl
    | some p => exact ih (parent?_inside inside parent)

theorem length_chain_le (f : Forest) (id : ScopeId) : (f.chain id).length ≤ id + 1 := by
  induction id using Nat.strongRecOn with
  | ind id ih =>
    by_cases inside : id < f.size
    · rw [chain_eq inside, List.length_cons]
      cases parent : f.parent? id with
      | none => exact Nat.le_add_left _ _
      | some p =>
        have below := parent?_lt parent
        exact Nat.succ_le_succ (Nat.le_trans (ih p below) below)
    · rw [chain_of_le (Nat.le_of_not_lt inside)]
      exact Nat.zero_le _

/-- The walk from a scope ends after no more steps than there are scopes. -/
theorem outward_ends {f : Forest} {id : ScopeId} (inside : id < f.size) :
    ∃ k ≤ f.size, f.outward id k = none := by
  refine ⟨(f.chain id).length, Nat.le_trans (f.length_chain_le id) inside, ?_⟩
  rw [← getElem?_chain inside, List.getElem?_eq_none (Nat.le_refl _)]

theorem inside_of_mem_chain {f : Forest} {id scope : ScopeId} (member : scope ∈ f.chain id) :
    scope < f.size := by
  induction id using Nat.strongRecOn with
  | ind id ih =>
    by_cases inside : id < f.size
    · rw [chain_eq inside] at member
      rcases List.mem_cons.1 member with rfl | around
      · exact inside
      · cases parent : f.parent? id with
        | none =>
          rw [parent] at around
          cases around
        | some p =>
          rw [parent] at around
          exact ih p (parent?_lt parent) around
    · rw [chain_of_le (Nat.le_of_not_lt inside)] at member
      cases member

theorem chain_define (f : Forest) (scope id : ScopeId) (name : Name) (value : Value) :
    (f.define scope name value).chain id = f.chain id := by
  by_cases inside : id < f.size
  · exact chain_congr (Nat.le_refl _) (Nat.le_of_eq (size_define f scope name value).symm)
      (fun id _ => parent?_define f scope id name value) inside
  · have outside := Nat.le_of_not_lt inside
    rw [chain_of_le outside, chain_of_le (by rwa [size_define])]

theorem get?_bindings_define {f : Forest} {scope : ScopeId} (inside : scope < f.size)
    (id : ScopeId) (name other : Name) (value : Value) :
    ((f.define scope name value).bindings id).get? other =
      if id = scope ∧ other = name then some value else (f.bindings id).get? other := by
  rw [bindings_define]
  by_cases same : id = scope
  · subst same
    rw [if_pos ⟨rfl, inside⟩]
    rw [Bindings.get?_set]
    exact if_congr (by simp) rfl rfl
  · rw [if_neg fun both => same both.1.symm, if_neg fun both => same both.1]

theorem binds_define {f : Forest} {scope : ScopeId} (inside : scope < f.size) (id : ScopeId)
    (name other : Name) (value : Value) :
    ((f.define scope name value).bindings id).binds other =
      (decide (id = scope ∧ other = name) || (f.bindings id).binds other) := by
  rw [Bindings.binds, get?_bindings_define inside]
  split
  · next this => rw [decide_eq_true this, Bool.true_or, Option.isSome_some]
  · next this => rw [decide_eq_false this, Bool.false_or, Bindings.binds]

theorem get?_of_resolve {f : Forest} {id scope : ScopeId} {name : Name}
    (found : f.resolve id name = some scope) : f.get? id name = (f.bindings scope).get? name := by
  rw [get?, found, Option.bind_some]

theorem resolve_spec {f : Forest} {id scope : ScopeId} {name : Name}
    (found : f.resolve id name = some scope) :
    scope < f.size ∧ (f.bindings scope).binds name = true := by
  have bound := List.find?_some found
  exact ⟨inside_of_mem_chain (List.mem_of_find?_eq_some found), bound⟩

/-- A name that is found so many scopes outward has a value there. -/
theorem hops_spec {f : Forest} {id : ScopeId} {name : Name} {n : Nat}
    (found : f.hops id name = some n) : ∃ scope v, (f.chain id)[n]? = some scope ∧
      f.resolve id name = some scope ∧ (f.bindings scope).get? name = some v := by
  obtain ⟨inside, bound, -⟩ := List.findIdx?_eq_some_iff_getElem.1 found
  obtain ⟨v, value⟩ := Option.isSome_iff_exists.1 bound
  refine ⟨(f.chain id)[n], v, List.getElem?_eq_getElem inside, ?_, value⟩
  rw [resolve_eq_hops, found]
  exact List.getElem?_eq_getElem inside

/-- What is read is unchanged where the name is found in the same scope, and there with the same
value. -/
theorem get?_eq_of_resolve {f f' : Forest} {id : ScopeId} {name : Name}
    (same : f'.resolve id name = f.resolve id name)
    (value : ∀ scope, f.resolve id name = some scope →
      (f'.bindings scope).get? name = (f.bindings scope).get? name) :
    f'.get? id name = f.get? id name := by
  cases found : f.resolve id name with
  | none => rw [get?, get?, same, found, Option.bind_none, Option.bind_none]
  | some scope => rw [get?_of_resolve found, get?_of_resolve (same.trans found), value scope found]

/-- An assignment from a scope was seen: names are found where they were, the new value is read
wherever the name is found in the same scope, and all else is read as before. -/
structure Reassigned (f f' : Forest) (e : ScopeId) (name : Name) (value : Value) : Prop where
  resolve : ∀ e' other, f'.resolve e' other = f.resolve e' other
  seen : ∀ e', f.resolve e' name = f.resolve e name → f'.get? e' name = some value
  unseen : ∀ e' other, other ≠ name ∨ f.resolve e' other ≠ f.resolve e name →
    f'.get? e' other = f.get? e' other

/-- A name that gets a new value where it is bound is found where it was. -/
theorem resolve_define_of_binds {f : Forest} {scope : ScopeId} {name : Name}
    (inside : scope < f.size) (bound : (f.bindings scope).binds name = true) (value : Value)
    (id : ScopeId) (other : Name) :
    (f.define scope name value).resolve id other = f.resolve id other := by
  have same : (fun s => ((f.define scope name value).bindings s).binds other) =
      fun s => (f.bindings s).binds other := by
    funext s
    rw [binds_define inside, Bool.or_eq_right_iff_imp, decide_eq_true_eq]
    rintro ⟨rfl, rfl⟩
    exact bound
  rw [Forest.resolve, Forest.resolve, chain_define, same]

theorem reassigned_define {f : Forest} {e scope : ScopeId} {name : Name}
    (found : f.resolve e name = some scope) (value : Value) :
    Reassigned f (f.define scope name value) e name value := by
  obtain ⟨inside, bound⟩ := resolve_spec found
  have still := resolve_define_of_binds inside bound value
  refine ⟨still, ?_, ?_⟩
  · intro e' same
    rw [get?_of_resolve ((still e' name).trans (same.trans found)), get?_bindings_define inside,
      if_pos ⟨rfl, rfl⟩]
  · intro e' other apart
    apply get?_eq_of_resolve (still e' other)
    intro s elsewhere
    rw [get?_bindings_define inside, if_neg]
    rintro ⟨rfl, rfl⟩
    exact apart.elim (fun different => different rfl) fun different =>
      different (elsewhere.trans found.symm)

/-- The walk from a scope comes to this one, and not behind the scope where it finds the name. -/
def InFront (f : Forest) (e : ScopeId) (name : Name) (e' : ScopeId) : Prop :=
  e ∈ f.chain e' ∧
    ∀ s, f.resolve e' name = some s → (f.chain e').idxOf e ≤ (f.chain e').idxOf s

instance (f : Forest) (e : ScopeId) (name : Name) (e' : ScopeId) :
    Decidable (f.InFront e name e') :=
  inferInstanceAs (Decidable (_ ∧ _))

/-- A declaration in a scope was seen: the name is found there, with its value, from wherever the
scope is in front, and all else is found and read as before. -/
structure Redefined (f f' : Forest) (e : ScopeId) (name : Name) (value : Value) : Prop where
  seen : ∀ e', f.InFront e name e' → f'.resolve e' name = some e ∧ f'.get? e' name = some value
  unseen : ∀ e' other, other ≠ name ∨ ¬ f.InFront e name e' →
    f'.resolve e' other = f.resolve e' other ∧ f'.get? e' other = f.get? e' other

/-- The first of a list that has a property or is a given one. -/
theorem find?_or_eq (p : ScopeId → Bool) (e : ScopeId) (ids : List ScopeId) :
    ids.find? (fun id => decide (id = e) || p id) =
      if e ∈ ids ∧ ∀ s, ids.find? p = some s → ids.idxOf e ≤ ids.idxOf s then some e
      else ids.find? p := by
  induction ids with
  | nil => simp
  | cons id ids ih =>
    by_cases this : id = e
    · subst this
      simp
    · by_cases holds : p id = true
      · -- The walk stops here, so what comes later does not matter.
        have behind : ¬ (id :: ids).idxOf e ≤ (id :: ids).idxOf id := by
          simp [List.idxOf_cons_ne ids this]
        rw [List.find?_cons_of_pos (by simp [holds]), List.find?_cons_of_pos holds,
          if_neg fun both => behind (both.2 id rfl)]
      · have member : e ∈ id :: ids ↔ e ∈ ids := by simp [Ne.symm this]
        have before (s : ScopeId) (found : ids.find? p = some s) :
            (id :: ids).idxOf e ≤ (id :: ids).idxOf s ↔ ids.idxOf e ≤ ids.idxOf s := by
          have other : id ≠ s := by
            rintro rfl
            exact holds (List.find?_some found)
          rw [List.idxOf_cons_ne ids this, List.idxOf_cons_ne ids other, Nat.succ_le_succ_iff]
        rw [List.find?_cons_of_neg (by simp [this, holds]), List.find?_cons_of_neg holds, ih]
        exact if_congr (and_congr member.symm (forall₂_congr before).symm) rfl rfl

theorem resolve_define {f : Forest} {e : ScopeId} (inside : e < f.size) (name : Name)
    (value : Value) (e' : ScopeId) :
    (f.define e name value).resolve e' name =
      if f.InFront e name e' then some e else f.resolve e' name := by
  have bound : (fun s => ((f.define e name value).bindings s).binds name) =
      fun s => decide (s = e) || (f.bindings s).binds name := by
    funext s
    rw [binds_define inside]
    simp
  rw [Forest.resolve, chain_define, bound, find?_or_eq]
  rfl

theorem resolve_define_of_ne {f : Forest} {name other : Name} (different : other ≠ name)
    {e : ScopeId} (inside : e < f.size) (value : Value) (e' : ScopeId) :
    (f.define e name value).resolve e' other = f.resolve e' other := by
  have same : (fun s => ((f.define e name value).bindings s).binds other) =
      fun s => (f.bindings s).binds other := by
    funext s
    rw [binds_define inside, decide_eq_false fun both => different both.2, Bool.false_or]
  rw [Forest.resolve, Forest.resolve, chain_define, same]

theorem redefined_define {f : Forest} {e : ScopeId} (inside : e < f.size) (name : Name)
    (value : Value) : Redefined f (f.define e name value) e name value := by
  constructor
  · intro e' front
    have found : (f.define e name value).resolve e' name = some e := by
      rw [resolve_define inside, if_pos front]
    refine ⟨found, ?_⟩
    rw [get?_of_resolve found, get?_bindings_define inside, if_pos ⟨rfl, rfl⟩]
  · intro e' other apart
    have still : (f.define e name value).resolve e' other = f.resolve e' other := by
      by_cases same : other = name
      · subst same
        rw [resolve_define inside, if_neg (apart.resolve_left fun different => different rfl)]
      · exact resolve_define_of_ne same inside value e'
    refine ⟨still, get?_eq_of_resolve still ?_⟩
    intro s found
    rw [get?_bindings_define inside, if_neg]
    rintro ⟨rfl, rfl⟩
    -- A name that is found in the scope itself has the scope in front.
    exact apart.elim (fun different => different rfl) fun behind => behind
      ⟨List.mem_of_find?_eq_some found, fun s' found' => by
        cases found.symm.trans found'
        exact Nat.le_refl _⟩

/-- In the scopes that any operations make the walk outward ends, and a chain is what it meets. An
assignment is refused where the name is not found, and then nothing changes; where it is found the
assignment is seen by those that find it in the same scope, and by them alone. A declaration is seen
by those that its scope is in front of, and by them alone. -/
theorem writes_are_seen_in_scope (history : List Operation) (e : ScopeId)
    (inside : e < (empty.performAll history).size) (name : Text) (value : Value)
    (line : Option Int) :
    let f := empty.performAll history
    let assignment := Operation.assign e name value line
    (∀ e' < f.size, (∃ k ≤ f.size, f.outward e' k = none) ∧
      ∀ k, (f.chain e')[k]? = f.outward e' k) ∧
    (f.resolve e (.text name) = none →
      f.answer assignment = .refused (.undefinedVariable name line) ∧ f.perform assignment = f) ∧
    (f.resolve e (.text name) ≠ none →
      f.answer assignment = .done ∧
        Reassigned f (f.perform assignment) e (.text name) value) ∧
    Redefined f (f.perform (.define e name value)) e (.text name) value := by
  intro f assignment
  refine ⟨fun e' here => ⟨outward_ends here, getElem?_chain here⟩, ?_, ?_, ?_⟩
  · intro missing
    simp only [assignment, answer, perform, assign?, missing, Option.map_none, Option.getD_none,
      and_self]
  · intro somewhere
    obtain ⟨scope, found⟩ := Option.ne_none_iff_exists'.1 somewhere
    simp only [assignment, answer, perform, assign?, found, Option.map_some, Option.getD_some,
      true_and]
    exact reassigned_define found value
  · exact redefined_define inside _ value

/-- A name that two scopes bind, one inside of the other, and two scopes further in. -/
def shadowed : List Operation :=
  [.new none, .new (some 0), .new (some 1), .new (some 0), .define 0 "x" (.text "outer"),
    .define 1 "x" (.text "inner"), .define 0 "y" .null]

/-- From the innermost scope the name is assigned to in the middle, where the scope beside does not
see it, and declared only for itself; a name that is bound nowhere is not assigned to. -/
theorem writes_are_seen_in_scope_shadowed :
    let f := empty.performAll shadowed
    let assigned := f.perform (.assign 2 "x" (.bool true) none)
    let declared := f.perform (.define 2 "x" (.bool true))
    2 < f.size ∧ f.resolve 2 (.text "x") = some 1 ∧
    (∃ k ≤ f.size, f.outward 2 k = none) ∧
    assigned.get? 1 (.text "x") = some (.bool true) ∧
    assigned.get? 3 (.text "x") = some (.text "outer") ∧
    declared.get? 2 (.text "x") = some (.bool true) ∧
    declared.get? 1 (.text "x") = some (.text "inner") ∧
    f.answer (.assign 2 "z" .null (some 7)) = .refused (.undefinedVariable "z" (some 7)) ∧
    f.perform (.assign 2 "z" .null (some 7)) = f := by
  intro f assigned declared
  have inside : 2 < f.size := by decide
  have found : f.resolve 2 (.text "x") = some 1 := by cbv
  have beside : f.resolve 3 (.text "x") = some 0 := by cbv
  have missing : f.resolve 2 (.text "z") = none := by cbv
  have around : f.chain 2 = [2, 1, 0] := by cbv
  have aside : f.chain 1 = [1, 0] := by cbv
  have outer : f.get? 3 (.text "x") = some (.text "outer") := by cbv
  have inner : f.get? 1 (.text "x") = some (.text "inner") := by cbv
  obtain ⟨walks, -, writes, declares⟩ :=
    writes_are_seen_in_scope shadowed 2 inside "x" (.bool true) none
  obtain ⟨-, refused, -, -⟩ := writes_are_seen_in_scope shadowed 2 inside "z" .null (some 7)
  obtain ⟨-, changed⟩ := writes (by rw [found]; exact Option.some_ne_none _)
  refine ⟨inside, found, (walks 2 inside).1, changed.seen 1 ?_, (changed.unseen 3 _ ?_).trans outer,
    (declares.seen 2 ?_).2, (declares.unseen 1 _ ?_).2.trans inner, refused missing⟩
  · cbv
  · exact .inr (by rw [beside, found]; decide)
  · refine ⟨by rw [around]; decide, fun s _ => ?_⟩
    rw [around]
    exact Nat.zero_le _
  · refine .inr fun front => ?_
    have member := front.1
    rw [aside] at member
    exact absurd member (by decide)

end TreeWalk.Forest
