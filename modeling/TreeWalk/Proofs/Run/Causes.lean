import TreeWalk.Proofs.Run.Visits

/-!
Why runs stop. No task holds up the stop of one that it calls, so a run stops as any task does that
it comes to. And whatever stops a run has a cause at a task that it comes to: a loop that has gone
round as often as it may, a variable whose name is none or that is not bound, an operator that its
operands do not go with, a value without a text, or a line that its stream does not take.
-/

set_option autoImplicit false

namespace TreeWalk.Run

open TreeWalk.Run.Action

theorem bind_eq_error_iff {α β : Type} {x : Action α} {f : α → Action β} {m : Machine} {s : Stop} :
    ((x >>= f) m).1 = .error s ↔
      (x m).1 = .error s ∨ ∃ a m', x m = (.ok a, m') ∧ (f a m').1 = .error s := by
  rw [bind_apply]
  generalize x m = after
  obtain ⟨result, m'⟩ := after
  cases result with
  | ok a =>
    constructor
    · intro stopped
      exact .inr ⟨a, m', rfl, stopped⟩
    · rintro (stopped | ⟨_, _, same, stopped⟩)
      · cases stopped
      · cases same
        exact stopped
  | error s' =>
    constructor
    · intro stopped
      cases stopped
      exact .inl rfl
    · rintro (stopped | ⟨_, _, same, _⟩)
      · cases stopped
        rfl
      · cases same

theorem stopped_first {α β : Type} {x : Action α} {m : Machine} {s : Stop}
    (stopped : (x m).1 = .error s) (f : α → Action β) : ((x >>= f) m).1 = .error s :=
  bind_eq_error_iff.2 (.inl stopped)

theorem stopped_second {α β : Type} {x : Action α} {f : α → Action β} {a : α} {m m' : Machine}
    {s : Stop} (ran : x m = (.ok a, m')) (stopped : (f a m').1 = .error s) :
    ((x >>= f) m).1 = .error s :=
  bind_eq_error_iff.2 (.inr ⟨a, m', ran, stopped⟩)

theorem running_eq_error_iff {settings : Settings} {body : Action Unit} {m : Machine} {s : Stop} :
    (running settings body m).1 = .error s ↔
      (body (m.trace settings .started)).1 = .error s := by
  unfold running
  split
  · next same => rw [same]
  · next same => rw [same]
  · next same => rw [same]

def Task.Stops (settings : Settings) (limit : Nat) (s : Stop) : Task → Machine → Prop
  | .program p, m => (runProgram settings limit p m).1 = .error s
  | .statements env body, m => (executeAll settings limit env body m).1 = .error s
  | .statement env stmt, m => (execute settings limit env stmt m).1 = .error s
  | .rounds env condition body left done, m =>
    (repeatWhile (loopTest settings env condition) (execute settings limit env body) left done
      m).1 = .error s
  | .expression env e, m => (evaluate settings env e m).1 = .error s

section

variable {settings : Settings} {limit : Nat} {task inner last : Task} {m m' : Machine} {s : Stop}
  {part place : List Nat}

theorem stops_of_calls (call : Calls settings limit task m part inner m')
    (stops : inner.Stops settings limit s m') : task.Stops settings limit s m := by
  cases call with
  | program => exact running_eq_error_iff.2 stops
  | first =>
    rw [Task.Stops, executeAll]
    exact stopped_first stops _
  | next ran =>
    rw [Task.Stops, executeAll]
    exact stopped_second ran stops
  | @value env stmt e m starts =>
    unfold firstValue? at starts
    split at starts <;> cases starts <;> rw [Task.Stops, execute]
    · exact stopped_first stops _
    · exact stopped_first stops _
    · exact stopped_first stops _
    · exact stopped_first (stopped_first stops _) _
    · exact stopped_first (stopped_first stops _) _
  | block =>
    rw [Task.Stops, execute]
    exact stops
  | alone tested | yes tested | no tested =>
    rw [Task.Stops, execute]
    exact stopped_second tested stops
  | loop =>
    rw [Task.Stops, execute]
    exact stopped_first stops _
  | test =>
    rw [Task.Stops, repeatWhile]
    exact stopped_first (stopped_first stops _) _
  | round tested =>
    rw [Task.Stops, repeatWhile]
    exact stopped_second tested (stopped_first stops _)
  | again tested ran =>
    rw [Task.Stops, repeatWhile]
    exact stopped_second tested (stopped_second ran stops)
  | @operand env whole e m starts =>
    unfold firstOperand? at starts
    split at starts <;> cases starts <;> rw [Task.Stops, evaluate] <;>
      exact stopped_first stops _
  | logical evaluated goesOn =>
    rw [Task.Stops, evaluate]
    refine stopped_second evaluated ?_
    rw [if_neg goesOn]
    exact stopped_first stops _
  | binary evaluated =>
    rw [Task.Stops, evaluate]
    exact stopped_second evaluated (stopped_first stops _)

theorem stops_of_reaches (reaches : Reaches settings limit task m place last m')
    (stops : last.Stops settings limit s m') : task.Stops settings limit s m := by
  induction reaches with
  | here => exact stops
  | inside call _ ih => exact stops_of_calls call (ih stops)

/-- A run that comes to a loop that has gone round as often as it may is left unfinished. -/
theorem Exhausts.stops (exhausts : Exhausts settings limit task m) :
    task.Stops settings limit .unfinished m := by
  obtain ⟨env, condition, body, place, m', reaches⟩ := exhausts
  exact stops_of_reaches reaches rfl

end

/-- Calls are of smaller parts of the tree, or of fewer rounds of the same loop. -/
noncomputable def Task.weight : Task → Nat × Nat
  | .program p => (sizeOf p.statements + 1, 0)
  | .statements _ body => (sizeOf body, 0)
  | .statement _ stmt => (sizeOf stmt, 0)
  | .rounds _ condition body left _ => (sizeOf condition + sizeOf body, left)
  | .expression _ e => (sizeOf e, 0)

theorem sizeOf_expr_pos (e : Expr) : 0 < sizeOf e := by
  cases e <;> simp

theorem sizeOf_stmt_pos (stmt : Stmt) : 0 < sizeOf stmt := by
  cases stmt <;> simp

theorem sizeOf_firstValue? {stmt : Stmt} {e : Expr} (starts : firstValue? stmt = some e) :
    sizeOf e < sizeOf stmt := by
  unfold firstValue? at starts
  split at starts <;> cases starts <;> simp <;> omega

theorem sizeOf_firstOperand? {whole e : Expr} (starts : firstOperand? whole = some e) :
    sizeOf e < sizeOf whole := by
  unfold firstOperand? at starts
  split at starts <;> cases starts <;> simp <;> omega

theorem weight_of_calls {settings : Settings} {limit : Nat} {task inner : Task} {m m' : Machine}
    {part : List Nat}
    (call : Calls settings limit task m part inner m') :
    Prod.Lex (· < ·) (· < ·) inner.weight task.weight := by
  cases call with
  | program | first | next | block | alone | yes | no | loop | logical | binary =>
    exact .left _ _ (by simp <;> omega)
  | value starts => exact .left _ _ (sizeOf_firstValue? starts)
  | operand starts => exact .left _ _ (sizeOf_firstOperand? starts)
  | test env condition body =>
    have positive := sizeOf_stmt_pos body
    exact .left _ _ (by omega)
  | @round env condition =>
    have positive := sizeOf_expr_pos condition
    exact .left _ _ (by omega)
  | again => exact .right _ (Nat.lt_succ_self _)

theorem Task.induction (settings : Settings) (limit : Nat) {motive : Task → Machine → Prop}
    (step : ∀ task m,
      (∀ part inner m', Calls settings limit task m part inner m' → motive inner m') →
        motive task m) (task : Task) (m : Machine) : motive task m := by
  -- The rounds of a loop are of one size; only the number that is left falls.
  have order := InvImage.wf Task.weight (Prod.lex Nat.lt_wfRel Nat.lt_wfRel).wf
  induction task using order.induction generalizing m with
  | _ task ih => exact step task m fun _ inner m' call => ih inner (weight_of_calls call) m'

/-- A task comes to use the name of a variable. -/
inductive Uses (settings : Settings) : Task → Machine → Token → Machine → Prop where
  | read (env : ScopeId) (name : Token) (m : Machine) :
    Uses settings (.expression env (.var name)) m name m
  | assign {env : ScopeId} {name : Token} {value : Expr} {v : Value} {m m' : Machine}
    (evaluated : evaluate settings env value m = (.ok v, m')) :
    Uses settings (.expression env (.assign name value)) m name m'
  | declare (env : ScopeId) (name : Token) (m : Machine) :
    Uses settings (.statement env (.declare name none)) m name m
  | initial {env : ScopeId} {name : Token} {e : Expr} {v : Value} {m m' : Machine}
    (evaluated : evaluate settings env e m = (.ok v, m')) :
    Uses settings (.statement env (.declare name (some e))) m name m'

/-- Why a task is stopped though none that it calls is. -/
inductive Cause (settings : Settings) : Stop → Task → Machine → Prop where
  | exhausted (env : ScopeId) (condition : Expr) (body : Stmt) (done : Nat) (m : Machine) :
    Cause settings .unfinished (.rounds env condition body 0 done) m
  | misnamed {task : Task} {name : Token} {m m' : Machine} {kind : String}
    (uses : Uses settings task m name m') (odd : Name.ofJson name.text = .error kind) :
    Cause settings (.fault (.unhashable kind)) task m
  | undefined {task : Task} {name : Token} {m m' : Machine} (uses : Uses settings task m name m') :
    Cause settings (.fault (.report (.undefinedVariable name.display (some name.line)))) task m
  | unary {env : ScopeId} {operator : Token} {operand : Expr} {v : Value} {m : Machine} {f : Fault}
    (applied : Value.applyUnary operator v = .error f) :
    Cause settings (.fault f) (.expression env (.unary operator operand)) m
  | binary {env : ScopeId} {operator : Token} {left right : Expr} {a b : Value} {m : Machine}
    {f : Fault} (applied : Value.applyBinary operator a b = .error f) :
    Cause settings (.fault f) (.expression env (.binary left operator right)) m
  | unsaid {task : Task} {v : Value} {m : Machine} {f : Fault} (shown : v.toText = .error f) :
    Cause settings (.fault f) task m
  | unprintable {env : ScopeId} {value : Expr} {v : Value} {t : Text} {m m' : Machine}
    (evaluated : evaluate settings env value m = (.ok v, m')) (shown : v.toText = .ok t)
    (refused : ¬settings.streams.output.takes t = true) :
    Cause settings (.fault (.unencodable t)) (.statement env (.print value)) m
  | untold {task : Task} {message : Message} {m : Machine}
    (reached : message.level ≤ settings.verbosity)
    (refused : ¬settings.streams.log.takes message.text = true) :
    Cause settings (.fault (.unencodable message.text)) task m

section

variable {settings : Settings} {env : ScopeId} {name : Token} {v : Value} {m m' : Machine}
  {s : Stop} {task : Task}

theorem lift_eq_error {α : Type} {r : Except Fault α} (stopped : (lift r m).1 = .error s) :
    ∃ f, r = .error f ∧ s = .fault f := by
  cases r with
  | ok a => cases stopped
  | error f =>
    cases stopped
    exact ⟨f, rfl, rfl⟩

theorem lift_eq_ok {α : Type} {r : Except Fault α} {a : α} (ran : lift r m = (.ok a, m')) :
    r = .ok a := by
  cases r with
  | ok b =>
    cases ran
    rfl
  | error f => cases ran

theorem send_eq_error {e : Event} (stopped : (send settings.streams e m).1 = .error s) :
    ¬settings.streams.take e = true ∧ s = .fault (.unencodable e.line) := by
  unfold send at stopped
  split at stopped
  · cases stopped
  · next refused =>
    cases stopped
    exact ⟨refused, rfl⟩

theorem cause_of_traceValue {level : Nat} {message : Text → Message}
    (stopped : (traceValue settings level v message m').1 = .error s) :
    Cause settings s task m := by
  unfold traceValue at stopped
  split at stopped
  · rcases bind_eq_error_iff.1 stopped with failed | ⟨_, _, _, traced⟩
    · obtain ⟨f, shown, rfl⟩ := lift_eq_error failed
      exact .unsaid shown
    · unfold trace at traced
      split at traced
      · next reached =>
        obtain ⟨refused, rfl⟩ := send_eq_error traced
        exact .untold reached refused
      · cases traced
  · cases stopped

theorem cause_of_reveal {type : NodeType} (stopped : (reveal settings type v m').1 = .error s) :
    Cause settings s task m := by
  unfold reveal at stopped
  rcases bind_eq_error_iff.1 stopped with failed | ⟨_, _, _, returned⟩
  · exact cause_of_traceValue failed
  · cases returned

theorem cause_of_nameOf (uses : Uses settings task m name m') {n : Machine}
    (stopped : (nameOf name n).1 = .error s) : Cause settings s task m := by
  unfold nameOf at stopped
  cases found : Name.ofJson name.text with
  | ok key =>
    rw [found] at stopped
    cases stopped
  | error kind =>
    rw [found] at stopped
    cases stopped
    exact .misnamed uses found

theorem cause_of_readVariable (uses : Uses settings task m name m') {n : Machine}
    (stopped : (readVariable settings env name n).1 = .error s) : Cause settings s task m := by
  unfold readVariable at stopped
  rcases bind_eq_error_iff.1 stopped with failed | ⟨key, _, _, later⟩
  · exact cause_of_nameOf uses failed
  · rcases bind_eq_error_iff.1 later with failed | ⟨v?, _, _, later⟩
    · cases failed
    · cases v? with
      | some v => cases later
      | none =>
        dsimp only at later
        split at later
        · cases later
          exact .undefined uses
        · cases later

theorem cause_of_assignVariable (uses : Uses settings task m name m') {n : Machine}
    (stopped : (assignVariable settings env name v n).1 = .error s) : Cause settings s task m := by
  unfold assignVariable at stopped
  rcases bind_eq_error_iff.1 stopped with failed | ⟨key, _, _, later⟩
  · exact cause_of_nameOf uses failed
  · rcases bind_eq_error_iff.1 later with failed | ⟨scope?, _, _, later⟩
    · cases failed
    · cases scope? with
      | some scope =>
        rcases bind_eq_error_iff.1 later with failed | ⟨_, _, _, traced⟩
        · cases failed
        · exact cause_of_traceValue traced
      | none =>
        rcases bind_eq_error_iff.1 later with failed | ⟨_, _, failed, _⟩
        · cases failed
          exact .undefined uses
        · cases failed

theorem cause_of_declareVariable (uses : Uses settings task m name m') {n : Machine}
    (stopped : (declareVariable settings env name v n).1 = .error s) : Cause settings s task m := by
  unfold declareVariable at stopped
  rcases bind_eq_error_iff.1 stopped with failed | ⟨key, _, _, later⟩
  · exact cause_of_nameOf uses failed
  · rcases bind_eq_error_iff.1 later with failed | ⟨_, _, _, traced⟩
    · cases failed
    · exact cause_of_traceValue traced

end

/-- A task that is stopped has a cause of its own, or calls one that is stopped. -/
def Explained (settings : Settings) (limit : Nat) (s : Stop) (task : Task) (m : Machine) : Prop :=
  Cause settings s task m ∨
    ∃ part inner m', Calls settings limit task m part inner m' ∧ inner.Stops settings limit s m'

section

variable {settings : Settings} {limit : Nat} {env : ScopeId} {m : Machine} {s : Stop}

theorem explained_expression {e : Expr} (stopped : (evaluate settings env e m).1 = .error s) :
    Explained settings limit s (.expression env e) m := by
  cases e with
  | literal value => exact .inl (cause_of_reveal stopped)
  | grouping inner =>
    rcases bind_eq_error_iff.1 stopped with inside | ⟨v, m', _, told⟩
    · exact .inr ⟨_, _, _, .operand rfl, inside⟩
    · exact .inl (cause_of_reveal told)
  | var name =>
    rcases bind_eq_error_iff.1 stopped with failed | ⟨v, m', _, told⟩
    · exact .inl (cause_of_readVariable (.read env name m) failed)
    · exact .inl (cause_of_reveal told)
  | assign name value =>
    rcases bind_eq_error_iff.1 stopped with inside | ⟨v, m', evaluated, later⟩
    · exact .inr ⟨_, _, _, .operand rfl, inside⟩
    · rcases bind_eq_error_iff.1 later with failed | ⟨_, m'', _, told⟩
      · exact .inl (cause_of_assignVariable (.assign evaluated) failed)
      · exact .inl (cause_of_reveal told)
  | logical left operator right =>
    rcases bind_eq_error_iff.1 stopped with inside | ⟨l, m', evaluated, later⟩
    · exact .inr ⟨_, _, _, .operand rfl, inside⟩
    · split at later
      · exact .inl (cause_of_reveal later)
      · next goesOn =>
        rcases bind_eq_error_iff.1 later with inside | ⟨r, m'', _, told⟩
        · exact .inr ⟨_, _, _, .logical evaluated goesOn, inside⟩
        · exact .inl (cause_of_reveal told)
  | unary operator operand =>
    rcases bind_eq_error_iff.1 stopped with inside | ⟨v, m', _, later⟩
    · exact .inr ⟨_, _, _, .operand rfl, inside⟩
    · rcases bind_eq_error_iff.1 later with failed | ⟨result, m'', _, told⟩
      · obtain ⟨f, applied, rfl⟩ := lift_eq_error failed
        exact .inl (.unary applied)
      · exact .inl (cause_of_reveal told)
  | binary left operator right =>
    rcases bind_eq_error_iff.1 stopped with inside | ⟨l, m', evaluated, later⟩
    · exact .inr ⟨_, _, _, .operand rfl, inside⟩
    · rcases bind_eq_error_iff.1 later with inside | ⟨r, m'', _, later⟩
      · exact .inr ⟨_, _, _, .binary evaluated, inside⟩
      · rcases bind_eq_error_iff.1 later with failed | ⟨result, n, _, told⟩
        · obtain ⟨f, applied, rfl⟩ := lift_eq_error failed
          exact .inl (.binary applied)
        · exact .inl (cause_of_reveal told)

/-- The test of a branch is stopped by its condition, or where the value is told. -/
theorem explained_testCondition {stmt : Stmt} {condition : Expr}
    (starts : firstValue? stmt = some condition)
    (stopped : (testCondition settings env condition m).1 = .error s) :
    Explained settings limit s (.statement env stmt) m := by
  rcases bind_eq_error_iff.1 stopped with inside | ⟨v, m', _, later⟩
  · exact .inr ⟨_, _, _, .value starts, inside⟩
  · rcases bind_eq_error_iff.1 later with told | ⟨_, m'', _, returned⟩
    · exact .inl (cause_of_traceValue told)
    · cases returned

theorem explained_statement {stmt : Stmt}
    (stopped : (execute settings limit env stmt m).1 = .error s) :
    Explained settings limit s (.statement env stmt) m := by
  cases stmt with
  | print value =>
    rw [execute] at stopped
    rcases bind_eq_error_iff.1 stopped with inside | ⟨v, m', evaluated, later⟩
    · exact .inr ⟨_, _, _, .value rfl, inside⟩
    · rcases bind_eq_error_iff.1 later with failed | ⟨t, m'', shown, printed⟩
      · obtain ⟨f, shown, rfl⟩ := lift_eq_error failed
        exact .inl (.unsaid shown)
      · obtain ⟨refused, rfl⟩ := send_eq_error printed
        exact .inl (.unprintable evaluated (lift_eq_ok shown) refused)
  | expression value =>
    rw [execute] at stopped
    rcases bind_eq_error_iff.1 stopped with inside | ⟨v, m', _, returned⟩
    · exact .inr ⟨_, _, _, .value rfl, inside⟩
    · cases returned
  | declare name initial =>
    cases initial with
    | none =>
      rw [execute] at stopped
      exact .inl (cause_of_declareVariable (.declare env name m) stopped)
    | some e =>
      rw [execute] at stopped
      rcases bind_eq_error_iff.1 stopped with inside | ⟨v, m', evaluated, failed⟩
      · exact .inr ⟨_, _, _, .value rfl, inside⟩
      · exact .inl (cause_of_declareVariable (.initial evaluated) failed)
  | block body =>
    rw [execute] at stopped
    exact .inr ⟨_, _, _, .block env body m, stopped⟩
  | ifThen condition yes =>
    rw [execute] at stopped
    rcases bind_eq_error_iff.1 stopped with testing | ⟨taken, m', tested, later⟩
    · exact explained_testCondition rfl testing
    · cases taken with
      | true => exact .inr ⟨_, _, _, .alone tested, later⟩
      | false => cases later
  | ifThenElse condition yes no =>
    rw [execute] at stopped
    rcases bind_eq_error_iff.1 stopped with testing | ⟨taken, m', tested, later⟩
    · exact explained_testCondition rfl testing
    · cases taken with
      | true => exact .inr ⟨_, _, _, .yes tested, later⟩
      | false => exact .inr ⟨_, _, _, .no tested, later⟩
  | loop condition body =>
    rw [execute] at stopped
    rcases bind_eq_error_iff.1 stopped with turning | ⟨rounds, m', _, traced⟩
    · exact .inr ⟨_, _, _, .loop env condition body m, turning⟩
    · rw [trace_looped] at traced
      cases traced

theorem explained_rounds {condition : Expr} {body : Stmt} {left done : Nat}
    (stopped : (repeatWhile (loopTest settings env condition) (execute settings limit env body)
      left done m).1 = .error s) :
    Explained settings limit s (.rounds env condition body left done) m := by
  cases left with
  | zero =>
    cases stopped
    exact .inl (.exhausted env condition body done m)
  | succ left =>
    rw [repeatWhile] at stopped
    rcases bind_eq_error_iff.1 stopped with testing | ⟨holds, m', tested, later⟩
    · rcases bind_eq_error_iff.1 testing with inside | ⟨v, m', _, returned⟩
      · exact .inr ⟨_, _, _, .test env condition body left done m, inside⟩
      · cases returned
    · cases holds with
      | false => cases later
      | true =>
        rcases bind_eq_error_iff.1 later with inside | ⟨_, m'', ran, again⟩
        · exact .inr ⟨_, _, _, .round tested, inside⟩
        · exact .inr ⟨_, _, _, .again tested ran, again⟩

theorem explained {task : Task} (stops : task.Stops settings limit s m) :
    Explained settings limit s task m := by
  cases task with
  | program p => exact .inr ⟨_, _, _, .program p m, running_eq_error_iff.1 stops⟩
  | statements env body =>
    cases body with
    | nil =>
      rw [Task.Stops, executeAll] at stops
      cases stops
    | cons stmt rest =>
      rw [Task.Stops, executeAll] at stops
      rcases bind_eq_error_iff.1 stops with inside | ⟨_, m', ran, later⟩
      · exact .inr ⟨_, _, _, .first env stmt rest m, inside⟩
      · exact .inr ⟨_, _, _, .next ran, later⟩
  | statement env stmt => exact explained_statement stops
  | rounds env condition body left done => exact explained_rounds stops
  | expression env e => exact explained_expression stops

/-- Whatever stops a run has a cause at a task that the run comes to. -/
theorem exists_cause {task : Task} (stops : task.Stops settings limit s m) :
    ∃ last place m', Reaches settings limit task m place last m' ∧ Cause settings s last m' := by
  induction task, m using Task.induction settings limit with
  | step task m ih =>
    rcases explained stops with cause | ⟨part, inner, m', call, stopped⟩
    · exact ⟨task, [], m, .here _ _, cause⟩
    · obtain ⟨last, place, m'', reaches, cause⟩ := ih part inner m' call stopped
      exact ⟨last, part ++ place, m'', .inside call reaches, cause⟩

/-- The rounds that are left and those that are done are as many as there may be. -/
def Task.Counted (limit : Nat) : Task → Prop
  | .rounds _ _ _ left done => left + done = limit
  | _ => True

theorem counted_of_calls {task inner : Task} {m' : Machine} {part : List Nat}
    (call : Calls settings limit task m part inner m') (counted : task.Counted limit) :
    inner.Counted limit := by
  cases call with
  | loop => exact Nat.add_zero limit
  | @again _ _ _ left done =>
    have total : left + 1 + done = limit := counted
    exact (by omega : left + (done + 1) = limit)
  | _ => trivial

theorem counted_of_reaches {task last : Task} {m' : Machine} {place : List Nat}
    (reaches : Reaches settings limit task m place last m') (counted : task.Counted limit) :
    last.Counted limit := by
  induction reaches with
  | here => exact counted
  | inside call _ ih => exact ih (counted_of_calls call counted)

/-- A task is left unfinished only by a loop that has gone round as often as it may. -/
theorem exhausts_of_stops {task : Task} (counted : task.Counted limit)
    (stops : task.Stops settings limit .unfinished m) : Exhausts settings limit task m := by
  obtain ⟨last, place, m', reaches, cause⟩ := exists_cause stops
  cases cause with
  | exhausted env condition body done =>
    have total : 0 + done = limit := counted_of_reaches reaches counted
    rw [Nat.zero_add] at total
    subst total
    exact ⟨env, condition, body, place, m', reaches⟩

theorem exhausts_runProgram {p : Program}
    (stopped : (runProgram settings limit p m).1 = .error .unfinished) :
    Exhausts settings limit (.program p) m :=
  @exhausts_of_stops _ _ _ (.program p) trivial stopped

end

end TreeWalk.Run
