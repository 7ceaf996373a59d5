import TreeWalk.Proofs.Scope.Names
import TreeWalk.Scope.Operation

/-!
Names do not touch each other. What an operation on a name answers depends on the scopes and on that
name in them, and it binds no other name. So a history tells the same about a name when the
operations on all others are left out, and two operations on different names can change places.
-/

set_option autoImplicit false

namespace TreeWalk

/-- An operation on one of these names, or one that makes a scope. -/
def Operation.about (names : Name → Bool) (o : Operation) : Bool :=
  o.name?.all fun name => names (.text name)

namespace Forest

/-- The same scopes with the same variables, in whatever order they were bound. -/
abbrev SameBindings : Forest → Forest → Prop := Agree fun _ => True

section

variable {known : Name → Prop} {f f' f'' : Forest}

theorem Agree.refl (known : Name → Prop) (f : Forest) : Agree known f f :=
  ⟨rfl, fun _ => rfl, fun _ _ _ => rfl⟩

theorem Agree.symm (agree : Agree known f f') : Agree known f' f :=
  ⟨agree.size.symm, fun id => (agree.parents id).symm,
    fun id name inside => (agree.values id name inside).symm⟩

theorem Agree.trans (first : Agree known f f') (second : Agree known f' f'') :
    Agree known f f'' :=
  ⟨first.size.trans second.size, fun id => (first.parents id).trans (second.parents id),
    fun id name inside => (first.values id name inside).trans (second.values id name inside)⟩

theorem sameBindings_of_agree (agree : ∀ name, Agree (· = name) f f') : SameBindings f f' :=
  ⟨(agree .null).size, (agree .null).parents, fun id name _ => (agree name).values id name rfl⟩

/-- Binding a name that is not known changes nothing that is. -/
theorem Agree.define_other (agree : Agree known f f') {name : Name} (other : ¬ known name)
    (scope : ScopeId) (value : Value) : Agree known (f.define scope name value) f' where
  size := (size_define f scope name value).trans agree.size
  parents := fun id => (parent?_define f scope id name value).trans (agree.parents id)
  values := by
    intro id key inside
    have different : key ≠ name := by
      rintro rfl
      exact other inside
    rw [bindings_define]
    split
    · rw [Bindings.get?_set_of_ne different, agree.values id key inside]
    · exact agree.values id key inside

end

section

variable {names : Name → Bool} {f f' : Forest} {o : Operation}

theorem Agree.answer (agree : Agree (names · = true) f f') (about : o.about names = true) :
    f.answer o = f'.answer o := by
  cases o with
  | new parent => rw [Forest.answer, Forest.answer, agree.size]
  | define => rfl
  | assign scope name | isDefined scope name | resolve scope name =>
    simp only [Forest.answer, agree.resolve scope about]
  | get scope name => simp only [Forest.answer, agree.get? scope about]

theorem Agree.perform (agree : Agree (names · = true) f f') (about : o.about names = true) :
    Agree (names · = true) (f.perform o) (f'.perform o) := by
  cases o with
  | new parent => exact agree.push parent
  | define scope name value => exact agree.define scope _ value
  | assign scope name value =>
    simp only [Forest.perform, assign?, agree.resolve scope about]
    cases f'.resolve scope (.text name) with
    | none => exact agree
    | some s => exact agree.define s _ value
  | get | isDefined | resolve => exact agree

theorem Agree.perform_other (agree : Agree (names · = true) f f') (other : o.about names = false) :
    Agree (names · = true) (f.perform o) f' := by
  cases o with
  | new => cases other
  | define scope name value => exact agree.define_other (Bool.eq_false_iff.1 other) scope value
  | assign scope name value =>
    simp only [Forest.perform, assign?]
    cases f.resolve scope (.text name) with
    | none => exact agree
    | some s => exact agree.define_other (Bool.eq_false_iff.1 other) s value
  | get | isDefined | resolve => exact agree

end

theorem performAll_append (f : Forest) (first second : List Operation) :
    f.performAll (first ++ second) = (f.performAll first).performAll second :=
  List.foldl_append

theorem transcript_append (f : Forest) (first second : List Operation) :
    f.transcript (first ++ second) =
      f.transcript first ++ (f.performAll first).transcript second := by
  induction first generalizing f with
  | nil => rfl
  | cons o first ih =>
    rw [List.cons_append, transcript, transcript, ih, List.cons_append]
    rfl

/-- What a history tells about some names, and what it binds them to, does not depend on the
operations on others. -/
theorem Agree.history {names : Name → Bool} {f f' : Forest} (agree : Agree (names · = true) f f')
    (history : List Operation) :
    (f.transcript history).filter (fun entry => entry.1.about names) =
        f'.transcript (history.filter (Operation.about names)) ∧
      Agree (names · = true) (f.performAll history)
        (f'.performAll (history.filter (Operation.about names))) := by
  induction history generalizing f f' with
  | nil => exact ⟨rfl, agree⟩
  | cons o history ih =>
    rw [transcript, performAll, List.foldl_cons]
    cases about : o.about names with
    | true =>
      obtain ⟨told, bound⟩ := ih (agree.perform about)
      rw [List.filter_cons_of_pos (by exact about), List.filter_cons_of_pos about, transcript,
        agree.answer about, told]
      exact ⟨rfl, bound⟩
    | false =>
      rw [List.filter_cons_of_neg (by simp [about]), List.filter_cons_of_neg (by simp [about])]
      exact ih (agree.perform_other about)

theorem SameBindings.history {f f' : Forest} (same : SameBindings f f')
    (history : List Operation) :
    f.transcript history = f'.transcript history ∧
      SameBindings (f.performAll history) (f'.performAll history) := by
  have all (o : Operation) : o.about (fun _ => true) = true := by
    cases o <;> rfl
  have agree : Agree (fun _ => true = true) f f' :=
    ⟨same.size, same.parents, fun id name _ => same.values id name trivial⟩
  obtain ⟨told, bound⟩ := @Agree.history (fun _ => true) f f' agree history
  rw [List.filter_eq_self.2 fun o _ => all o] at told bound
  rw [List.filter_eq_self.2 fun entry _ => all entry.1] at told
  exact ⟨told, bound.size, bound.parents, fun id name _ => bound.values id name rfl⟩

theorem about_other {a : Operation} {x y : Text} (named : a.name? = some x) (different : x ≠ y) :
    a.about (· = .text y) = false := by
  rw [Operation.about, named]
  simp [different]

/-- At most one of two operations on different names is about a name. -/
theorem filter_swap {a b : Operation} {x y : Text} (first : a.name? = some x)
    (second : b.name? = some y) (different : x ≠ y) (name : Name) :
    [a, b].filter (Operation.about (· = name)) = [b, a].filter (Operation.about (· = name)) := by
  have apart : ¬ (a.about (· = name) = true ∧ b.about (· = name) = true) := by
    rw [Operation.about, Operation.about, first, second]
    simp only [Option.all_some, decide_eq_true_eq]
    rintro ⟨rfl, same⟩
    exact different (Name.text.inj same).symm
  simp only [List.filter_cons, List.filter_nil]
  split
  · next here =>
    have absent : ¬ b.about (· = name) = true := fun there => apart ⟨here, there⟩
    rw [if_neg absent, if_neg absent]
  · rfl

/-- A history has the same answers on a name when all operations on other names are left out of it.
Two operations on different names, one after the other, can change places: they have the same
answers, and so has every later operation, and the same variables are left. -/
theorem names_are_independent (f : Forest) :
    (∀ (history : List Operation) (name : Text),
      (f.transcript history).filter (fun entry => entry.1.about (· = .text name)) =
        f.transcript (history.filter (Operation.about (· = .text name)))) ∧
    ∀ (before after : List Operation) (a b : Operation) (x y : Text), a.name? = some x →
      b.name? = some y → x ≠ y → ∃ (answerA answerB : Answer) (later : List (Operation × Answer)),
        f.transcript (before ++ a :: b :: after) =
          f.transcript before ++ (a, answerA) :: (b, answerB) :: later ∧
        f.transcript (before ++ b :: a :: after) =
          f.transcript before ++ (b, answerB) :: (a, answerA) :: later ∧
        SameBindings (f.performAll (before ++ a :: b :: after))
          (f.performAll (before ++ b :: a :: after)) := by
  refine ⟨fun history name => (Agree.history (.refl _ f) history).1, ?_⟩
  intro before after a b x y first second different
  generalize now : f.performAll before = g
  have alone (name : Name) : Agree (fun key => decide (key = name) = true) g g := .refl _ g
  have answerA : (g.perform b).answer a = g.answer a :=
    ((alone (.text x)).perform_other (about_other second different.symm)).answer
      (by simp [Operation.about, first])
  have answerB : (g.perform a).answer b = g.answer b :=
    ((alone (.text y)).perform_other (about_other first different)).answer
      (by simp [Operation.about, second])
  -- On each name both orders agree with the one operation of the two that is about it, if any.
  have same : SameBindings (g.performAll [a, b]) (g.performAll [b, a]) := by
    apply sameBindings_of_agree
    intro name
    have forth := ((alone name).history [a, b]).2
    have back := ((alone name).history [b, a]).2
    rw [filter_swap first second different] at forth
    have agree := forth.trans back.symm
    simpa only [decide_eq_true_eq] using agree
  obtain ⟨told, bound⟩ := same.history after
  refine ⟨g.answer a, g.answer b, (g.performAll [a, b]).transcript after, ?_, ?_, ?_⟩
  · rw [transcript_append, now, transcript, transcript, answerB]
    rfl
  · rw [transcript_append, now, transcript, transcript, answerA, told]
    rfl
  · rw [performAll_append, performAll_append, now]
    exact bound

/-- Two names in a scope and in one around it; each is assigned to where the other one is not. -/
def interleaved : List Operation :=
  [.new none, .define 0 "x" (.text "outer"), .new (some 0), .define 1 "y" .null,
    .assign 1 "x" (.bool true) none, .assign 0 "y" .null (some 3), .get 1 "x" true, .get 0 "y" true]

/-- The answers on one name, and two of the operations in another order; one of these is refused. -/
theorem names_are_independent_interleaved :
    (empty.transcript interleaved).filter (fun entry => entry.1.about (· = .text "x")) =
      empty.transcript [.new none, .define 0 "x" (.text "outer"), .new (some 0),
        .assign 1 "x" (.bool true) none, .get 1 "x" true] ∧
    (empty.performAll (interleaved.take 4)).answer (.assign 0 "y" .null (some 3)) =
      .refused (.undefinedVariable "y" (some 3)) ∧
    ∃ (answerA answerB : Answer) (later : List (Operation × Answer)),
      empty.transcript interleaved = empty.transcript (interleaved.take 4) ++
        (.assign 1 "x" (.bool true) none, answerA) :: (.assign 0 "y" .null (some 3), answerB) ::
          later ∧
      empty.transcript (interleaved.take 4 ++ [.assign 0 "y" .null (some 3),
          .assign 1 "x" (.bool true) none, .get 1 "x" true, .get 0 "y" true]) =
        empty.transcript (interleaved.take 4) ++ (.assign 0 "y" .null (some 3), answerB) ::
          (.assign 1 "x" (.bool true) none, answerA) :: later ∧
      SameBindings (empty.performAll interleaved) (empty.performAll (interleaved.take 4 ++
        [.assign 0 "y" .null (some 3), .assign 1 "x" (.bool true) none, .get 1 "x" true,
          .get 0 "y" true])) := by
  obtain ⟨answersOn, swapped⟩ := names_are_independent empty
  obtain ⟨answerA, answerB, later, forth, back, same⟩ := swapped (interleaved.take 4)
    [.get 1 "x" true, .get 0 "y" true] (.assign 1 "x" (.bool true) none)
    (.assign 0 "y" .null (some 3)) "x" "y" rfl rfl (by decide)
  exact ⟨answersOn interleaved "x", by cbv, answerA, answerB, later, forth, back, same⟩

end Forest

end TreeWalk
