import TreeWalk.Proofs.Run.Causes
import TreeWalk.Proofs.Run.Diagnostics
import TreeWalk.Proofs.Run.Frames

/-!
Strictness only stops runs. A strict run and one that is not strict do the same until a variable is
read that is not bound; the strict run stops there, and the other one goes on and prints more. The
same is so of two runs whose loops may go round for different numbers of rounds, until a loop of the
first one has gone round as often as it may. So the two are compared at once.
-/

set_option autoImplicit false

namespace TreeWalk.Run

open TreeWalk.Run.Action

def Machine.printed (m : Machine) : List Text := m.events.toList.filterMap Event.printed?

theorem printed_trace (settings : Settings) (message : Message) (m : Machine) :
    (m.trace settings message).printed = m.printed := by
  rw [Machine.printed, events_trace, printed_traced]
  rfl

theorem printed_running (settings : Settings) (body : Action Unit) (m : Machine) :
    (running settings body m).2.printed = (body (m.trace settings .started)).2.printed := by
  rw [Machine.printed, events_running, List.filterMap_append, printed_closing, List.append_nil]
  rfl

/-- An action prints after what is printed already. -/
def Adds {α : Type} (x : Action α) : Prop := ∀ m : Machine, m.printed <+: (x m).2.printed

/-- A run is beside itself; the events after those so far are the same ones. -/
theorem simulation_self (settings : Settings) (before : List Event) :
    Simulation settings settings id id (Beside (fun _ => True) (Added settings before before))
      Stop.Alike Never (fun _ => True) :=
  (@sameScopes_tokens settings id id (fun _ => rfl) (fun _ => rfl) before before).simulation

section

variable {α : Type} {E : Stop → Stop → Prop} {P : α → Prop}

theorem adds_of_inStep {settings : Settings} {x : Action α} (h : ∀ before,
    InStep (Beside (fun _ => True) (Added settings before before)) E Never P x x) : Adds x := by
  intro m
  have beside : Beside (fun _ => True) (Added settings m.events.toList m.events.toList) m m :=
    ⟨rfl, trivial, rfl, .refl _ _ _⟩
  obtain ⟨added, events, -⟩ := ((h m.events.toList).keeps m m beside).events
  rw [Machine.printed, Machine.printed, events, List.filterMap_append]
  exact List.prefix_append _ _

theorem Adds.bind {β : Type} {x : Action α} {f : α → Action β} (first : Adds x)
    (second : ∀ a, Adds (f a)) : Adds (x >>= f) := by
  intro m
  have earlier := first m
  rw [bind_apply]
  generalize x m = after at earlier
  obtain ⟨result, m'⟩ := after
  cases result with
  | ok a => exact earlier.trans (second a m')
  | error s => exact earlier

end

theorem adds_pure {α : Type} (a : α) : Adds (pure a : Action α) := fun _ => List.prefix_refl _

theorem adds_lift {α : Type} (r : Except Fault α) : Adds (lift r) := by
  intro m
  cases r <;> exact List.prefix_refl _

section

variable (settings : Settings) (limit : Nat) (env : ScopeId)

theorem adds_print (v : Value) :
    Adds (lift v.toText >>= fun shown => send settings.streams (.printed shown)) :=
  adds_of_inStep fun before => (simulation_self settings before).print v trivial

theorem adds_reveal (type : NodeType) (v : Value) : Adds (reveal settings type v) :=
  adds_of_inStep fun before => (simulation_self settings before).reveal type trivial

theorem adds_traceValue {level : Nat} (v : Value) {message : Text → Message}
    (levels : ∀ shown, (message shown).level = level) :
    Adds (traceValue settings level v message) :=
  adds_of_inStep fun before => (simulation_self settings before).reveals level v message trivial
    levels

theorem adds_looped (rounds : Nat) : Adds (trace settings (.looped rounds)) :=
  adds_of_inStep fun before => (simulation_self settings before).looped rounds

theorem adds_assignVariable (name : Token) (v : Value) :
    Adds (assignVariable settings env name v) :=
  adds_of_inStep fun before => (simulation_self settings before).assign env name v trivial

theorem adds_declareVariable (name : Token) (v : Value) :
    Adds (declareVariable settings env name v) :=
  adds_of_inStep fun before => (simulation_self settings before).declare env name v trivial

theorem adds_evaluate (e : Expr) : Adds (evaluate settings env e) := by
  have same (before : List Event) := (simulation_self settings before).evaluate env e
  rw [e.mapTokens_id] at same
  exact adds_of_inStep same

theorem adds_execute (s : Stmt) : Adds (execute settings limit env s) := by
  have same (before : List Event) := (simulation_self settings before).execute limit env s
  rw [s.mapTokens_id] at same
  exact adds_of_inStep same

theorem adds_executeAll (body : List Stmt) : Adds (executeAll settings limit env body) := by
  have same (before : List Event) := (simulation_self settings before).executeAll limit env body
  rw [Stmt.mapTokensAll_id] at same
  exact adds_of_inStep same

theorem adds_loopTest (condition : Expr) : Adds (loopTest settings env condition) :=
  (adds_evaluate settings env condition).bind adds_pure

theorem adds_rounds (condition : Expr) (body : Stmt) (left done : Nat) :
    Adds (repeatWhile (loopTest settings env condition) (execute settings limit env body) left
      done) := by
  induction left generalizing done with
  | zero => exact fun m => List.prefix_refl _
  | succ left ih =>
    rw [repeatWhile]
    refine (adds_loopTest settings env condition).bind fun holds => ?_
    cases holds with
    | true => exact (adds_execute settings limit env body).bind fun _ => ih (done + 1)
    | false => exact adds_pure done

end

/-- Why the first of two runs stops early: a loop has gone round as often as it may, or the run is
strict and reads a variable that is not bound. -/
inductive Halt (settings : Settings) : Task → Machine → Prop where
  | exhausted (env : ScopeId) (condition : Expr) (body : Stmt) (done : Nat) (m : Machine) :
    Halt settings (.rounds env condition body 0 done) m
  | unbound {env : ScopeId} {name : Token} {key : Name} {m : Machine}
    (strict : settings.strict = true) (named : Name.ofJson name.text = .ok key)
    (none : m.scopes.get? env key = none) : Halt settings (.expression env (.var name)) m

def Halts (settings : Settings) (limit : Nat) (task : Task) (m : Machine) : Prop :=
  ∃ last place m', Reaches settings limit task m place last m' ∧ Halt settings last m'

theorem Halts.call {settings : Settings} {limit : Nat} {task inner : Task} {m m' : Machine}
    {part : List Nat} (call : Calls settings limit task m part inner m')
    (halts : Halts settings limit inner m') : Halts settings limit task m := by
  obtain ⟨last, place, m'', reaches, halt⟩ := halts
  exact ⟨last, part ++ place, m'', .inside call reaches, halt⟩

/-- Two outcomes are the same, or the first one is that of a run that was stopped for a reason
before it had printed all that the other one prints. -/
def Lags {α : Type} (reason : Prop) (r r' : Except Stop α × Machine) : Prop :=
  r = r' ∨ reason ∧ (∃ s, r.1 = .error s) ∧ r.2.printed <+: r'.2.printed

section

variable {α β : Type} {reason : Prop}

theorem Lags.refl (r : Except Stop α × Machine) : Lags reason r r := .inl rfl

theorem Lags.mono {reason' : Prop} {r r' : Except Stop α × Machine} (lags : Lags reason r r')
    (h : reason → reason') : Lags reason' r r' := by
  rcases lags with same | ⟨holds, stopped, printed⟩
  · exact .inl same
  · exact .inr ⟨h holds, stopped, printed⟩

theorem Lags.printed {r r' : Except Stop α × Machine} (lags : Lags reason r r') :
    r.2.printed <+: r'.2.printed := by
  rcases lags with rfl | ⟨_, _, printed⟩
  · exact List.prefix_refl _
  · exact printed

/-- A run that lags behind in its first part stays behind, since the other one only adds lines. -/
theorem Lags.bind {x y : Action α} {f g : α → Action β} {m : Machine}
    (first : Lags reason (x m) (y m)) (adds : ∀ a, Adds (g a))
    (second : ∀ a m', x m = (.ok a, m') → Lags reason (f a m') (g a m')) :
    Lags reason ((x >>= f) m) ((y >>= g) m) := by
  rw [bind_apply, bind_apply]
  rcases first with same | ⟨holds, ⟨s, stopped⟩, printed⟩
  · rw [← same]
    generalize x m = after at second
    obtain ⟨result, m'⟩ := after
    cases result with
    | ok a => exact second a m' rfl
    | error s => exact .refl _
  · generalize x m = after at stopped printed
    generalize y m = after' at printed
    obtain ⟨result, n⟩ := after
    obtain ⟨result', n'⟩ := after'
    cases stopped
    refine .inr ⟨holds, ⟨s, rfl⟩, ?_⟩
    cases result' with
    | ok a => exact printed.trans (adds a n')
    | error s' => exact printed

end

/-- The first run of a task lags behind the second one. -/
def Task.LagsBehind (reason : Prop) (settings settings' : Settings) (limit limit' : Nat) :
    Task → Machine → Prop
  | .program p, m =>
    Lags reason (runProgram settings limit p m) (runProgram settings' limit' p m)
  | .statements env body, m =>
    Lags reason (executeAll settings limit env body m) (executeAll settings' limit' env body m)
  | .statement env s, m =>
    Lags reason (execute settings limit env s m) (execute settings' limit' env s m)
  | .rounds env condition body left done, m => ∀ left', left ≤ left' →
    Lags reason
      (repeatWhile (loopTest settings env condition) (execute settings limit env body) left done m)
      (repeatWhile (loopTest settings' env condition) (execute settings' limit' env body) left'
        done m)
  | .expression env e, m => Lags reason (evaluate settings env e m) (evaluate settings' env e m)

theorem Task.LagsBehind.mono {reason reason' : Prop} {settings settings' : Settings}
    {limit limit' : Nat} {task : Task} {m : Machine}
    (lags : task.LagsBehind reason settings settings' limit limit' m) (h : reason → reason') :
    task.LagsBehind reason' settings settings' limit limit' m := by
  cases task with
  | rounds => exact fun left' le => (lags left' le).mono h
  | _ => exact Lags.mono lags h

section

variable {reason : Prop} {strict strict' : Bool} {verbosity limit limit' : Nat}
  {streams : Streams} {env : ScopeId} {m : Machine}

/-- The runs differ only where a variable is not bound and one of them alone is strict. -/
theorem lags_readVariable (weaker : strict' = true → strict = true) {name : Token}
    (own : Halt ⟨strict, verbosity, streams⟩ (.expression env (.var name)) m → reason) :
    Lags reason (readVariable ⟨strict, verbosity, streams⟩ env name m)
      (readVariable ⟨strict', verbosity, streams⟩ env name m) := by
  cases named : Name.ofJson name.text with
  | error kind =>
    unfold readVariable nameOf
    rw [named]
    exact .refl _
  | ok key =>
    rw [readVariable_eq named, readVariable_eq named]
    cases found : m.scopes.get? env key with
    | some v => exact .refl _
    | none =>
      dsimp only
      by_cases stops : strict = true
      · rw [if_pos stops]
        exact .inr ⟨own (.unbound stops named found), ⟨_, rfl⟩, List.prefix_refl _⟩
      · rw [if_neg stops, if_neg fun h => stops (weaker h)]
        exact .refl _

theorem lags_expression (weaker : strict' = true → strict = true) {e : Expr}
    (own : Halt ⟨strict, verbosity, streams⟩ (.expression env e) m → reason)
    (calls : ∀ part inner m',
      Calls ⟨strict, verbosity, streams⟩ limit (.expression env e) m part inner m' →
        inner.LagsBehind reason ⟨strict, verbosity, streams⟩ ⟨strict', verbosity, streams⟩
          limit limit' m') :
    Lags reason (evaluate ⟨strict, verbosity, streams⟩ env e m)
      (evaluate ⟨strict', verbosity, streams⟩ env e m) := by
  have tells (type : NodeType) (v : Value) := adds_reveal ⟨strict', verbosity, streams⟩ type v
  cases e with
  | literal value => exact .refl _
  | grouping inner => exact (calls _ _ _ (.operand rfl)).bind (tells _) fun v m' _ => .refl _
  | var name => exact (lags_readVariable weaker own).bind (tells _) fun v m' _ => .refl _
  | assign name value =>
    refine (calls _ _ _ (.operand rfl)).bind (fun v => ?_) fun v m' _ => .refl _
    exact (adds_assignVariable _ env name v).bind fun _ => tells _ v
  | logical left operator right =>
    refine (calls _ _ _ (.operand rfl)).bind (fun l => ?_) fun l m' evaluated => ?_
    · split
      · exact tells _ l
      · exact (adds_evaluate _ env right).bind (tells _)
    · split
      · exact .refl _
      · next goesOn =>
        exact (calls _ _ _ (.logical evaluated goesOn)).bind (tells _) fun r m'' _ => .refl _
  | unary operator operand =>
    refine (calls _ _ _ (.operand rfl)).bind (fun v => ?_) fun v m' _ => .refl _
    exact (adds_lift _).bind (tells _)
  | binary left operator right =>
    have rest (l r : Value) := (adds_lift (Value.applyBinary operator l r)).bind (tells .binary)
    refine (calls _ _ _ (.operand rfl)).bind (fun l => ?_) fun l m' evaluated => ?_
    · exact (adds_evaluate _ env right).bind (rest l)
    · exact (calls _ _ _ (.binary evaluated)).bind (rest l) fun r m'' _ => .refl _

theorem lags_testCondition {condition : Expr}
    (lags : Lags reason (evaluate ⟨strict, verbosity, streams⟩ env condition m)
      (evaluate ⟨strict', verbosity, streams⟩ env condition m)) :
    Lags reason (testCondition ⟨strict, verbosity, streams⟩ env condition m)
      (testCondition ⟨strict', verbosity, streams⟩ env condition m) := by
  refine lags.bind (fun v => ?_) fun v m' _ => .refl _
  exact (@adds_traceValue _ 3 v (.tested · v.truthy) fun _ => rfl).bind fun _ => adds_pure _

/-- A block keeps what its statements have printed. -/
theorem lags_within {α : Type} {body body' : ScopeId → Action α}
    (lags : Lags reason (body m.scopes.size (entered ⟨strict, verbosity, streams⟩ env m))
      (body' m.scopes.size (entered ⟨strict, verbosity, streams⟩ env m))) :
    Lags reason (within ⟨strict, verbosity, streams⟩ env body m)
      (within ⟨strict', verbosity, streams⟩ env body' m) := by
  rcases lags with same | ⟨holds, stopped, printed⟩
  · left
    exact congrArg (fun after : Except Stop α × Machine => (after.1, Machine.trace
      ⟨strict, verbosity, streams⟩ _ { after.2 with cursor := m.cursor })) same
  · refine .inr ⟨holds, stopped, ?_⟩
    simp only [within_apply, left, printed_trace]
    exact printed

theorem lags_statement {s : Stmt} (le : limit ≤ limit')
    (calls : ∀ part inner m',
      Calls ⟨strict, verbosity, streams⟩ limit (.statement env s) m part inner m' →
        inner.LagsBehind reason ⟨strict, verbosity, streams⟩ ⟨strict', verbosity, streams⟩
          limit limit' m') :
    Lags reason (execute ⟨strict, verbosity, streams⟩ limit env s m)
      (execute ⟨strict', verbosity, streams⟩ limit' env s m) := by
  have runs (s : Stmt) := adds_execute ⟨strict', verbosity, streams⟩ limit' env s
  cases s with
  | print value =>
    rw [execute, execute]
    exact (calls _ _ _ (.value rfl)).bind (adds_print _) fun v m' _ => .refl _
  | expression value =>
    rw [execute, execute]
    exact (calls _ _ _ (.value rfl)).bind (fun _ => adds_pure ()) fun v m' _ => .refl _
  | declare name initial =>
    cases initial with
    | none =>
      rw [execute, execute]
      exact .refl _
    | some e =>
      rw [execute, execute]
      exact (calls _ _ _ (.value rfl)).bind (adds_declareVariable _ env name) fun v m' _ => .refl _
  | block body =>
    rw [execute, execute]
    exact lags_within (calls _ _ _ (.block env body m))
  | ifThen condition yes =>
    rw [execute, execute]
    refine (lags_testCondition (calls _ _ _ (.value rfl))).bind (fun taken => ?_) ?_
    · cases taken with
      | true => exact runs yes
      | false => exact adds_pure ()
    · intro taken m' tested
      cases taken with
      | true => exact calls _ _ _ (.alone tested)
      | false => exact .refl _
  | ifThenElse condition yes no =>
    rw [execute, execute]
    refine (lags_testCondition (calls _ _ _ (.value rfl))).bind (fun taken => ?_) ?_
    · cases taken with
      | true => exact runs yes
      | false => exact runs no
    · intro taken m' tested
      cases taken with
      | true => exact calls _ _ _ (.yes tested)
      | false => exact calls _ _ _ (.no tested)
  | loop condition body =>
    rw [execute, execute]
    have rounds := calls _ _ _ (.loop env condition body m) limit' le
    exact rounds.bind (adds_looped _) fun count m' _ => .refl _

theorem lags_rounds {condition : Expr} {body : Stmt} {left done : Nat}
    (own : Halt ⟨strict, verbosity, streams⟩ (.rounds env condition body left done) m → reason)
    (calls : ∀ part inner m',
      Calls ⟨strict, verbosity, streams⟩ limit (.rounds env condition body left done) m part inner
        m' → inner.LagsBehind reason ⟨strict, verbosity, streams⟩ ⟨strict', verbosity, streams⟩
          limit limit' m')
    {left' : Nat} (le : left ≤ left') :
    Lags reason
      (repeatWhile (loopTest ⟨strict, verbosity, streams⟩ env condition)
        (execute ⟨strict, verbosity, streams⟩ limit env body) left done m)
      (repeatWhile (loopTest ⟨strict', verbosity, streams⟩ env condition)
        (execute ⟨strict', verbosity, streams⟩ limit' env body) left' done m) := by
  have turns (left : Nat) :=
    adds_rounds ⟨strict', verbosity, streams⟩ limit' env condition body left
  cases left with
  | zero =>
    exact .inr ⟨own (.exhausted env condition body done m), ⟨_, rfl⟩, turns left' done m⟩
  | succ left =>
    obtain ⟨left', rfl⟩ : ∃ n, left' = n + 1 := ⟨left' - 1, by omega⟩
    have round := (adds_execute ⟨strict', verbosity, streams⟩ limit' env body).bind fun _ =>
      turns left' (done + 1)
    rw [repeatWhile, repeatWhile]
    have tests : Lags reason (loopTest ⟨strict, verbosity, streams⟩ env condition m)
        (loopTest ⟨strict', verbosity, streams⟩ env condition m) :=
      (calls _ _ _ (.test env condition body left done m)).bind adds_pure fun v m' _ => .refl _
    refine tests.bind (fun holds => ?_) fun holds m' tested => ?_
    · cases holds with
      | true => exact round
      | false => exact adds_pure done
    · cases holds with
      | false => exact .refl _
      | true =>
        refine (calls _ _ _ (.round tested)).bind (fun _ => turns left' (done + 1)) ?_
        intro _ m'' ran
        exact calls _ _ _ (.again tested ran) left' (by omega)

theorem lags_running {body body' : Action Unit}
    (lags : Lags reason (body (m.trace ⟨strict, verbosity, streams⟩ .started))
      (body' (m.trace ⟨strict, verbosity, streams⟩ .started))) :
    Lags reason (running ⟨strict, verbosity, streams⟩ body m)
      (running ⟨strict', verbosity, streams⟩ body' m) := by
  rcases lags with same | ⟨holds, ⟨s, stopped⟩, printed⟩
  · left
    unfold running
    rw [same]
    rfl
  · refine .inr ⟨holds, ⟨s, running_eq_error_iff.2 stopped⟩, ?_⟩
    rw [printed_running, printed_running]
    exact printed

/-- A run lags behind one that is not stricter and whose loops may go round as often at least. -/
theorem lags (weaker : strict' = true → strict = true) (le : limit ≤ limit') (task : Task)
    (m : Machine) :
    task.LagsBehind (Halts ⟨strict, verbosity, streams⟩ limit task m) ⟨strict, verbosity, streams⟩
      ⟨strict', verbosity, streams⟩ limit limit' m := by
  induction task, m using Task.induction ⟨strict, verbosity, streams⟩ limit with
  | step task m ih =>
    -- What halts a task that is called halts the caller, so one reason serves all the cases.
    have own (halt : Halt ⟨strict, verbosity, streams⟩ task m) :
        Halts ⟨strict, verbosity, streams⟩ limit task m := ⟨task, [], m, .here _ _, halt⟩
    have calls (part : List Nat) (inner : Task) (m' : Machine)
        (call : Calls ⟨strict, verbosity, streams⟩ limit task m part inner m') :=
      (ih part inner m' call).mono (Halts.call call)
    cases task with
    | program p => exact lags_running (calls _ _ _ (.program p m))
    | statements env body =>
      cases body with
      | nil =>
        rw [Task.LagsBehind, executeAll, executeAll]
        exact .refl _
      | cons s rest =>
        rw [Task.LagsBehind, executeAll, executeAll]
        refine Lags.bind (calls _ _ _ (.first env s rest m)) (fun _ => ?_) fun _ m' ran => ?_
        · exact adds_executeAll ⟨strict', verbosity, streams⟩ limit' env rest
        · exact calls _ _ _ (.next ran)
    | statement env s => exact lags_statement le calls
    | rounds env condition body left done => exact fun left' le => lags_rounds own calls le
    | expression env e => exact lags_expression weaker own calls

end

/-- A run comes to read a variable that is bound in no scope around it. -/
def ReadsUnbound (settings : Settings) (limit : Nat) (task : Task) (m : Machine) (name : Token) :
    Prop :=
  ∃ env key place m', Reaches settings limit task m place (.expression env (.var name)) m' ∧
    Name.ofJson name.text = .ok key ∧ m'.scopes.get? env key = none

section

variable {settings : Settings} {limit : Nat} {task : Task} {m : Machine}

theorem stops_of_readsUnbound {name : Token} (strict : settings.strict = true)
    (reads : ReadsUnbound settings limit task m name) :
    task.Stops settings limit
      (.fault (.report (.undefinedVariable name.display (some name.line)))) m := by
  obtain ⟨env, key, place, m', reaches, named, none⟩ := reads
  refine stops_of_reaches reaches (stopped_first ?_ _)
  rw [readVariable_eq named, none]
  dsimp only
  rw [if_pos strict]

/-- What makes a run stop early leaves it unfinished or is such a read. -/
theorem Halts.cases (halts : Halts settings limit task m) :
    task.Stops settings limit .unfinished m ∨
      settings.strict = true ∧ ∃ name, ReadsUnbound settings limit task m name := by
  obtain ⟨last, place, m', reaches, halt⟩ := halts
  cases halt with
  | exhausted => exact .inl (stops_of_reaches reaches rfl)
  | unbound strict named none => exact .inr ⟨strict, _, _, _, place, m', reaches, named, none⟩

end

/-- A run that is not strict and comes to its end does the same where its loops may go round more
often. -/
theorem runProgram_of_finished {verbosity limit limit' : Nat} {streams : Streams} {p : Program}
    {m : Machine}
    (le : limit ≤ limit')
    (finished : (runProgram ⟨false, verbosity, streams⟩ limit p m).1 ≠ .error .unfinished) :
    runProgram ⟨false, verbosity, streams⟩ limit p m =
      runProgram ⟨false, verbosity, streams⟩ limit' p m := by
  rcases @lags false false verbosity _ _ streams id le (.program p) m with same | ⟨halts, -⟩
  · exact same
  · rcases halts.cases with unfinished | ⟨strict, -⟩
    · exact absurd unfinished finished
    · cases strict

theorem visible_runProgram (settings : Settings) (limit : Nat) (p : Program) (globals : Bindings) :
    ∀ e ∈ (runProgram settings limit p (.start globals)).2.events.toList,
      e.visible settings.verbosity = true := by
  have start : Beside (fun _ => True) (Added settings [] [])
      (Machine.trace settings .started (.start globals))
      (Machine.trace settings .started (.start globals)) :=
    Beside.trace ⟨rfl, trivial, rfl, .refl _ _ _⟩ fun _ _ added => added.traced .started
  obtain ⟨added, events, -, visible⟩ :=
    (((simulation_self settings []).executeAll limit globalScope p.statements).keeps _ _
      start).events
  rw [← List.nil_append added, ← events] at visible
  rw [runProgram, events_running, List.forall_mem_append]
  exact ⟨visible, visible_closing settings _⟩

theorem Session.output_runProgram {settings : Settings} {limit : Nat} {p : Program}
    {globals : Bindings} {result : Except Stop Unit} {events : List Event} {session : Session}
    (ran : (Session.holding settings globals).act (runProgram settings limit p) =
      (result, events, session)) :
    session.output events = textOf (runProgram settings limit p (.start globals)).2.printed := by
  cases ran
  exact Session.At.output ⟨rfl, rfl, rfl, rfl⟩ (visible_runProgram settings limit p globals)

theorem Session.act_runProgram {settings : Settings} {limit : Nat} {p : Program}
    {globals : Bindings} {result : Except Stop Unit} {events : List Event} {session : Session}
    (ran : (Session.holding settings globals).act (runProgram settings limit p) =
      (result, events, session)) :
    let after := executeAll settings limit globalScope p.statements
      (Machine.trace settings .started (.start globals))
    result = after.1 ∧ session.globals = after.2.globals ∧
      session.output events = textOf after.2.printed ∧
      events = after.2.events.toList ++ closing settings after.1 := by
  have output := Session.output_runProgram ran
  rw [runProgram, printed_running] at output
  cases ran
  have ends := result_running settings (executeAll settings limit globalScope p.statements)
    (.start globals)
  have told := events_running settings (executeAll settings limit globalScope p.statements)
    (.start globals)
  rw [ends] at told
  refine ⟨ends, ?_, output, told⟩
  exact congrArg (Forest.bindings · globalScope) (scopes_running settings _ (.start globals))

/-- From any variables, a strict run of a program that comes to its end without reading a variable
that is not bound ends as one that is not strict does, with the same events, the same lines printed
and the same variables. A strict run that reads such a variable is stopped by it, and each run that
is not strict and comes to its end prints what the strict one does, and maybe more. -/
theorem strictness_only_stops (verbosity : Nat) (streams : Streams) (limit limit' : Nat)
    (p : Program) (globals : Bindings) {result result' : Except Stop Unit}
    {events events' : List Event} {session session' : Session}
    (strict : (Session.holding ⟨true, verbosity, streams⟩ globals).act
      (runProgram ⟨true, verbosity, streams⟩ limit p) = (result, events, session))
    (lenient : (Session.holding ⟨false, verbosity, streams⟩ globals).act
      (runProgram ⟨false, verbosity, streams⟩ limit' p) = (result', events', session')) :
    (result ≠ .error .unfinished →
      (¬∃ name, ReadsUnbound ⟨true, verbosity, streams⟩ limit (.program p) (.start globals) name) →
      limit ≤ limit' ∨ result' ≠ .error .unfinished →
      result' = result ∧ events' = events ∧ session'.output events' = session.output events ∧
        session'.globals = session.globals) ∧
    ∀ name, ReadsUnbound ⟨true, verbosity, streams⟩ limit (.program p) (.start globals) name →
      result = .error (.fault (.report (.undefinedVariable name.display (some name.line)))) ∧
      (result' ≠ .error .unfinished →
        ∃ rest, session'.output events' = session.output events ++ rest) := by
  have output := Session.output_runProgram strict
  have output' := Session.output_runProgram lenient
  -- Both runs are compared with one that is not strict and may go round as often as either.
  have behind := @lags true false verbosity limit (max limit limit') streams (fun _ => rfl)
    (Nat.le_max_left _ _) (.program p) (.start globals)
  have finished (h : (runProgram ⟨false, verbosity, streams⟩ limit' p (.start globals)).1 ≠
      .error .unfinished) :=
    runProgram_of_finished (Nat.le_max_right limit limit') h
  rw [output, output']
  cases strict
  cases lenient
  constructor
  · intro ends bound enough
    have far : runProgram ⟨false, verbosity, streams⟩ limit' p (.start globals) =
        runProgram ⟨false, verbosity, streams⟩ (max limit limit') p (.start globals) := by
      rcases enough with le | ends'
      · rw [Nat.max_eq_right le]
      · exact finished ends'
    have near : runProgram ⟨true, verbosity, streams⟩ limit p (.start globals) =
        runProgram ⟨false, verbosity, streams⟩ (max limit limit') p (.start globals) := by
      rcases behind with same | ⟨halts, -⟩
      · exact same
      · rcases halts.cases with unfinished | ⟨-, reads⟩
        · exact absurd unfinished ends
        · exact absurd reads bound
    have same := far.trans near.symm
    exact ⟨congrArg (·.1) same, congrArg (·.2.events.toList) same,
      congrArg (textOf ·.2.printed) same, congrArg (·.2.globals) same⟩
  · intro name reads
    refine ⟨stops_of_readsUnbound rfl reads, ?_⟩
    intro ends
    obtain ⟨more, lines⟩ := behind.printed
    rw [finished ends, ← lines, textOf_append]
    exact ⟨_, rfl⟩

/-- A program that gives a value to a variable that is not bound. -/
def misassigned : Program :=
  ⟨[.print (.literal (.text "a")),
    .expression (.assign (.identifier "y" 2) (.literal (.bool true)))]⟩

/-- Its failing use of the variable is no read. -/
theorem not_reaches_var_misassigned {settings : Settings} {limit : Nat} {env : ScopeId}
    {name : Token} {m m' : Machine} {place : List Nat} :
    ¬Reaches settings limit (.program misassigned) m place (.expression env (.var name)) m' := by
  have literal {scope : ScopeId} {value : Literal} {m m' : Machine} {place : List Nat} :
      ¬Reaches settings limit (.expression scope (.literal value)) m place
        (.expression env (.var name)) m' := by
    rintro (_ | ⟨call, _⟩)
    cases call with
    | operand starts => cases starts
  intro reaches
  cases reaches with | inside call later =>
  cases call with | program =>
  cases later with | inside call later =>
  cases call with
  | first =>
    cases later with | inside call later =>
    cases call with | value starts =>
    cases starts
    exact literal later
  | next =>
    cases later with | inside call later =>
    cases call with
    | first =>
      cases later with | inside call later =>
      cases call with | value starts =>
      cases starts
      cases later with | inside call later =>
      cases call with | operand starts =>
      cases starts
      exact literal later
    | next =>
      cases later with | inside call later =>
      cases call

/-- A program that goes one way or the other by a variable that is not bound. -/
def undecided : Program :=
  ⟨[.print (.literal (.text "a")),
    .ifThenElse (.var (.identifier "y" 2)) (.print (.literal (.text "b")))
      (.print (.literal (.text "c")))]⟩

theorem strictness_only_stops_unbound :
    let strict : Settings := ⟨true, 1, ⟨.utf8, .utf8⟩⟩
    let lax : Settings := ⟨false, 1, ⟨.utf8, .utf8⟩⟩
    (∃ result events session result' events' session',
      (Session.holding strict []).act (runProgram strict 5 misassigned) =
        (result, events, session) ∧
      (Session.holding lax []).act (runProgram lax 5 misassigned) =
        (result', events', session') ∧
      result = .error (.fault (.report (.undefinedVariable "y" (some 2)))) ∧
      result' = result ∧ events' = events ∧ session'.output events' = session.output events ∧
      session'.globals = session.globals) ∧
    ∃ result events session result' events' session',
      (Session.holding strict []).act (runProgram strict 5 undecided) =
        (result, events, session) ∧
      (Session.holding lax []).act (runProgram lax 7 undecided) =
        (result', events', session') ∧
      result = .error (.fault (.report (.undefinedVariable "y" (some 2)))) ∧
      session.output events = "a\n" ∧ session'.output events' = "a\nc\n" ∧
      ∃ rest, session'.output events' = session.output events ++ rest := by
  intro strict lax
  have bound : ¬∃ name, ReadsUnbound strict 5 (.program misassigned) (.start []) name := by
    rintro ⟨name, env, key, place, m, reaches, -⟩
    exact not_reaches_var_misassigned reaches
  have reads : ReadsUnbound strict 5 (.program undecided) (.start []) (.identifier "y" 2) :=
    ⟨globalScope, .text "y", _, _, .inside (.program _ _) (.inside (.next rfl) (.inside
      (.first _ _ _ _) (.inside (.value rfl) (.here _ _)))), rfl, by cbv⟩
  have first := (strictness_only_stops 1 ⟨.utf8, .utf8⟩ 5 5 misassigned [] rfl rfl).1
    (by cbv; rintro ⟨⟩) bound (.inl (Nat.le_refl 5))
  have second := ((strictness_only_stops 1 ⟨.utf8, .utf8⟩ 5 7 undecided [] rfl rfl).2 _ reads)
  refine ⟨⟨_, _, _, _, _, _, rfl, rfl, by cbv, first⟩, ?_⟩
  exact ⟨_, _, _, _, _, _, rfl, rfl, second.1, by cbv, by cbv, second.2 (by cbv; rintro ⟨⟩)⟩

end TreeWalk.Run
