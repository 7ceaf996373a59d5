import TreeWalk.Proofs.Run.Causes

/-!
The faults of trees that no source text has. A tree from a document may name a variable by a list or
an object. Such a value is no name, and a run is stopped by it exactly if it comes to use it as one.
A text of a document may hold half of a pair, and a run that is not watched is stopped by it exactly
if it comes to print it where the output has no bytes for it. Nothing else is left to stop a run
from plain values, but for a loop and for what is reported.
-/

set_option autoImplicit false

namespace TreeWalk.Run

open TreeWalk.Run.Action

/-- If the result is a fault, it is that of an integer that is no double or of an operand of a wrong
type. -/
def Complains {α : Type} (r : Except Fault α) : Prop :=
  ∀ f, r = .error f → f = .numberTooLarge ∨ ∃ line detail, f = .report (.typeError line detail)

section

variable {α β : Type}

theorem Complains.bind {r : Except Fault α} {f : α → Except Fault β} (first : Complains r)
    (second : ∀ a, Complains (f a)) : Complains (r >>= f) := by
  cases r with
  | ok a => exact second a
  | error fault =>
    intro f same
    cases same
    exact first _ rfl

theorem Complains.ne_unhashable {r : Except Fault α} (complains : Complains r) (kind : String) :
    r ≠ .error (.unhashable kind) := by
  intro same
  obtain other | ⟨line, detail, other⟩ := complains _ same
  · cases other
  · cases other

theorem Complains.ne_unencodable {r : Except Fault α} (complains : Complains r) (t : Text) :
    r ≠ .error (.unencodable t) := by
  intro same
  obtain other | ⟨line, detail, other⟩ := complains _ same
  · cases other
  · cases other

theorem complains_ok (a : α) : Complains (.ok a : Except Fault α) := nofun

theorem complains_orTooLarge (a? : Option α) : Complains (orTooLarge a?) := by
  intro f same
  cases a? with
  | some a => cases same
  | none =>
    cases same
    exact .inl rfl

theorem complains_mistyped (operator : Token) (detail : Text) :
    Complains (Value.mistyped operator detail : Except Fault α) := by
  intro f same
  cases same
  exact .inr ⟨_, _, rfl⟩

theorem complains_applyUnary (operator : Token) (v : Value) :
    Complains (Value.applyUnary operator v) := by
  unfold Value.applyUnary
  split
  · exact complains_ok _
  · exact (complains_orTooLarge _).bind fun _ => complains_ok _
  · exact (complains_orTooLarge _).bind fun _ => complains_mistyped _ _

theorem complains_onNumbers? {k : Kind} {a b : Number} {result : Except Fault Value}
    (found : Value.onNumbers? k a b = some result) : Complains result := by
  have arithmetic (f : Float → Float → Float) : Complains (do
      let x ← orTooLarge a.toDouble?
      let y ← orTooLarge b.toDouble?
      return Value.number (.double (f x y))) :=
    (complains_orTooLarge _).bind fun _ => (complains_orTooLarge _).bind fun _ => complains_ok _
  unfold Value.onNumbers? at found
  split at found <;> cases found
  · exact arithmetic _
  · exact arithmetic _
  · exact arithmetic _
  · exact arithmetic _
  · exact complains_ok _
  · exact complains_ok _
  · exact complains_ok _
  · exact complains_ok _

theorem complains_applyBinary (operator : Token) (a b : Value) :
    Complains (Value.applyBinary operator a b) := by
  unfold Value.applyBinary
  split
  · exact complains_ok _
  · exact complains_ok _
  · exact complains_ok _
  · exact (complains_orTooLarge _).bind fun _ => complains_ok _
  · exact (complains_orTooLarge _).bind fun _ => complains_ok _
  · split
    · next found => exact complains_onNumbers? found
    · exact complains_mistyped _ _
  · split
    · exact (complains_orTooLarge _).bind fun _ => (complains_orTooLarge _).bind fun _ =>
        complains_mistyped _ _
    · exact complains_mistyped _ _

end

section

variable {settings : Settings} {limit : Nat} {task : Task} {m : Machine} {kind : String}

/-- A run comes to use a name that is a value of a kind that no name is of. -/
def Misnamed (settings : Settings) (limit : Nat) (task : Task) (m : Machine) (kind : String) :
    Prop :=
  ∃ last place m' name m'', Reaches settings limit task m place last m' ∧
    Uses settings last m' name m'' ∧ Name.ofJson name.text = .error kind

theorem nameOf_of_odd {name : Token} (odd : Name.ofJson name.text = .error kind) (m : Machine) :
    (nameOf name m).1 = .error (.fault (.unhashable kind)) := by
  rw [nameOf, odd]
  rfl

theorem Uses.stops {name : Token} {m' : Machine} (uses : Uses settings task m name m')
    (odd : Name.ofJson name.text = .error kind) :
    task.Stops settings limit (.fault (.unhashable kind)) m := by
  cases uses with
  | read => exact stopped_first (stopped_first (nameOf_of_odd odd _) _) _
  | assign evaluated =>
    exact stopped_second evaluated (stopped_first (stopped_first (nameOf_of_odd odd _) _) _)
  | declare =>
    rw [Task.Stops, execute]
    exact stopped_first (nameOf_of_odd odd _) _
  | initial evaluated =>
    rw [Task.Stops, execute]
    exact stopped_second evaluated (stopped_first (nameOf_of_odd odd _) _)

/-- A run is stopped by a value that is no name exactly if it comes to use one as a name. -/
theorem stops_unhashable_iff : task.Stops settings limit (.fault (.unhashable kind)) m ↔
    Misnamed settings limit task m kind := by
  constructor
  · intro stops
    obtain ⟨last, place, m', reaches, cause⟩ := exists_cause stops
    cases cause with
    | misnamed uses odd => exact ⟨last, place, m', _, _, reaches, uses, odd⟩
    | unary applied => exact absurd applied ((complains_applyUnary _ _).ne_unhashable _)
    | binary applied => exact absurd applied ((complains_applyBinary _ _ _).ne_unhashable _)
    | unsaid shown => exact absurd shown ((complains_orTooLarge _).ne_unhashable _)
  · rintro ⟨last, place, m', name, m'', reaches, uses, odd⟩
    exact stops_of_reaches reaches (uses.stops odd)

/-- A run comes to print a text that the output does not take. -/
def Unprintable (settings : Settings) (limit : Nat) (task : Task) (m : Machine) (t : Text) :
    Prop :=
  ∃ env value place m' v m'',
    Reaches settings limit task m place (.statement env (.print value)) m' ∧
    evaluate settings env value m' = (.ok v, m'') ∧ v.toText = .ok t ∧
    ¬settings.streams.output.takes t = true

/-- A run without a trace is stopped by a text that a stream does not take exactly if it comes to
print one. -/
theorem stops_unencodable_iff {t : Text} (quiet : settings.verbosity = 0) :
    task.Stops settings limit (.fault (.unencodable t)) m ↔
      Unprintable settings limit task m t := by
  constructor
  · intro stops
    obtain ⟨last, place, m', reaches, cause⟩ := exists_cause stops
    cases cause with
    | unprintable evaluated shown refused =>
      exact ⟨_, _, place, m', _, _, reaches, evaluated, shown, refused⟩
    | @untold _ message _ reached _ =>
      have positive := message.level_pos
      omega
    | unary applied => exact absurd applied ((complains_applyUnary _ _).ne_unencodable _)
    | binary applied => exact absurd applied ((complains_applyBinary _ _ _).ne_unencodable _)
    | unsaid shown => exact absurd shown ((complains_orTooLarge _).ne_unencodable _)
  · rintro ⟨env, value, place, m', v, m'', reaches, evaluated, shown, refused⟩
    apply stops_of_reaches reaches
    rw [Task.Stops, execute]
    refine stopped_second evaluated ?_
    rw [shown]
    exact congrArg Prod.fst (@send_of_refused settings.streams (.printed t) refused m'')

end

theorem names_of_firstValue? {s : Stmt} {e : Expr} (starts : firstValue? s = some e) :
    e.names ⊆ s.names := by
  unfold firstValue? at starts
  split at starts <;> cases starts <;> rw [Stmt.names]
  · exact List.Subset.refl _
  · exact List.Subset.refl _
  · exact List.subset_cons_self _ _
  · exact List.subset_append_left _ _
  · exact List.subset_append_of_subset_left _ (List.subset_append_left _ _)

theorem names_of_firstOperand? {whole e : Expr} (starts : firstOperand? whole = some e) :
    e.names ⊆ whole.names := by
  unfold firstOperand? at starts
  split at starts <;> cases starts <;> rw [Expr.names]
  · exact List.Subset.refl _
  · exact List.subset_cons_self _ _
  · exact List.subset_append_left _ _
  · exact List.Subset.refl _
  · exact List.subset_append_left _ _

section

variable {settings : Settings} {limit : Nat} {task inner last : Task} {m m' : Machine}
  {part place : List Nat}

theorem names_of_calls (call : Calls settings limit task m part inner m') :
    inner.names ⊆ task.names := by
  cases call with
  | program | again => exact List.Subset.refl _
  | first =>
    rw [Task.names, Task.names, Stmt.namesAll]
    exact List.subset_append_left _ _
  | next =>
    rw [Task.names, Task.names, Stmt.namesAll]
    exact List.subset_append_right _ _
  | value starts => exact names_of_firstValue? starts
  | operand starts => exact names_of_firstOperand? starts
  | block | loop =>
    rw [Task.names, Task.names, Stmt.names]
    exact List.Subset.refl _
  | alone | no =>
    rw [Task.names, Task.names, Stmt.names]
    exact List.subset_append_right _ _
  | yes =>
    rw [Task.names, Task.names, Stmt.names]
    exact List.subset_append_of_subset_left _ (List.subset_append_right _ _)
  | test => exact List.subset_append_left _ _
  | round | logical | binary => exact List.subset_append_right _ _

theorem names_of_reaches (reaches : Reaches settings limit task m place last m') :
    last.names ⊆ task.names := by
  induction reaches with
  | here => exact List.Subset.refl _
  | inside call _ ih => exact List.Subset.trans ih (names_of_calls call)

theorem mem_names_of_uses {name : Token} (uses : Uses settings task m name m') :
    name ∈ task.names := by
  cases uses with
  | read | assign => exact List.mem_cons_self
  | declare | initial =>
    rw [Task.names, Stmt.names]
    exact List.mem_cons_self

theorem Misnamed.exists_name {kind : String} (misnamed : Misnamed settings limit task m kind) :
    ∃ name ∈ task.names, Name.ofJson name.text = .error kind := by
  obtain ⟨last, place, m', name, m'', reaches, uses, odd⟩ := misnamed
  exact ⟨name, names_of_reaches reaches (mem_names_of_uses uses), odd⟩

end

/-- A run from plain values without a trace ends well, with a report on a type or a variable, at a
value that is no name, at a text that is not printable, or it is left unfinished. -/
theorem runProgram_cases {settings : Settings} (quiet : settings.verbosity = 0) (limit : Nat)
    (p : Program) {m : Machine} (plain : m.scopes.Plain True) : ∃ m',
      runProgram settings limit p m = (.ok (), m') ∨
      (∃ r, runProgram settings limit p m = (.error (.fault (.report r)), m') ∧
        r.status = 70) ∨
      (∃ kind, runProgram settings limit p m = (.error (.fault (.unhashable kind)), m') ∧
        Misnamed settings limit (.program p) m kind) ∨
      (∃ t, runProgram settings limit p m = (.error (.fault (.unencodable t)), m') ∧
        Unprintable settings limit (.program p) m t) ∨
      runProgram settings limit p m = (.error .unfinished, m') ∧
        Exhausts settings limit (.program p) m := by
  have parts : Parts ⟨True, True, True⟩ p.tokens p.tokens (Stmt.namesAll p.statements)
      p.constants :=
    parts_program (.inr trivial) (.inr trivial)
  have ends := (safe_runProgram settings limit trivial parts).ends m plain
  have loops := @exhausts_runProgram settings limit m p
  have names (kind : String) := @stops_unhashable_iff settings limit (.program p) m kind
  have prints (t : Text) := @stops_unencodable_iff settings limit (.program p) m t quiet
  dsimp only [Task.Stops] at names prints
  generalize runProgram settings limit p m = after at ends loops names prints
  obtain ⟨result, m'⟩ := after
  refine ⟨m', ?_⟩
  cases result with
  | ok _ => exact .inl rfl
  | error s =>
    cases s with
    | unfinished => exact .inr (.inr (.inr (.inr ⟨rfl, loops rfl⟩)))
    | fault f =>
      cases f with
      | report r =>
        refine .inr (.inl ⟨r, rfl, ?_⟩)
        rcases ends.1 with named | named <;> rw [Report.status, named] <;> rfl
      | unhashable kind => exact .inr (.inr (.inl ⟨kind, rfl, (names kind).1 rfl⟩))
      | unencodable t => exact .inr (.inr (.inr (.inl ⟨t, rfl, (prints t).1 rfl⟩)))
      | _ => exact ends.elim

end TreeWalk.Run
