import TreeWalk.Proofs.Run.Causes
import TreeWalk.Run.Session

/-!
Runs that are watched. A watched run is one that keeps a log of its calls: each evaluation of an
expression and each execution of a statement is logged where it starts, with its place in the tree,
the scope that it is handed and the machine. To forget the log gives back the run, and what is
logged are the calls that a task comes to.
-/

set_option autoImplicit false

namespace TreeWalk.Run

open TreeWalk.Run.Action

/-- A call on a node that should be a statement or an expression, in a scope. -/
inductive Call where
  | execute (env : ScopeId) (node : Node)
  | evaluate (env : ScopeId) (node : Node)

def Call.scope : Call → ScopeId
  | .execute env _ | .evaluate env _ => env

/-- A call at a place of a tree, and the machine at which it starts. -/
structure Moment where
  place : List Nat
  call : Call
  machine : Machine

abbrev Log := List Moment

/-- The log of a part of a tree, as one of the whole. -/
def Log.under (part : Nat) (log : Log) : Log :=
  log.map fun moment => { moment with place := part :: moment.place }

/-- An action with a log of its calls. -/
def Watched (α : Type) := Machine → (Log × Except Stop α) × Machine

namespace Watched

variable {α β : Type}

protected def pure (a : α) : Watched α := fun m => (([], .ok a), m)

protected def bind (x : Watched α) (f : α → Watched β) : Watched β := fun m =>
  match x m with
  | ((log, .ok a), m) =>
    let ((later, result), m) := f a m
    ((log ++ later, result), m)
  | ((log, .error stop), m) => ((log, .error stop), m)

instance : Monad Watched where
  pure := Watched.pure
  bind := Watched.bind

/-- An action that makes no calls. -/
def quietly (x : Action α) : Watched α := fun m =>
  let (result, m) := x m
  (([], result), m)

def called (call : Call) (x : Watched α) : Watched α := fun m =>
  let ((log, result), after) := x m
  ((⟨[], call, m⟩ :: log, result), after)

/-- The work on a part of a tree. -/
def under (part : Nat) (x : Watched α) : Watched α := fun m =>
  let ((log, result), after) := x m
  ((log.under part, result), after)

def log (x : Watched α) (m : Machine) : Log := (x m).1.1

/-- The action itself, without its log. -/
def erase (x : Watched α) : Action α := fun m => ((x m).1.2, (x m).2)

def within (settings : Settings) (env : ScopeId) (body : ScopeId → Watched α) : Watched α :=
  inScope settings env body

def repeatWhile (test : Watched Bool) (body : Watched Unit) : (limit rounds : Nat) → Watched Nat
  | 0, _ => quietly (stop .unfinished)
  | limit + 1, rounds => do
    if ← test then
      body
      repeatWhile test body limit (rounds + 1)
    else
      return rounds

def running (settings : Settings) (body : Watched Unit) : Watched Unit := fun m =>
  let ((log, result), after) := body (m.trace settings .started)
  let (result, after) := Run.running settings (fun _ => (result, after)) m
  ((log, result), after)

def evaluate (settings : Settings) (env : ScopeId) (e : Expr) : Watched Value :=
  called (.evaluate env (.expression e)) <| match e with
  | .literal value => quietly (reveal settings .literal (.ofLiteral value))
  | .grouping inner => do
    let v ← under 0 (evaluate settings env inner)
    quietly (reveal settings .grouping v)
  | .var name => do
    let v ← quietly (readVariable settings env name)
    quietly (reveal settings .var v)
  | .assign name value => do
    let v ← under 0 (evaluate settings env value)
    quietly (assignVariable settings env name v)
    quietly (reveal settings .assign v)
  | .logical left operator right => do
    let l ← under 0 (evaluate settings env left)
    if decide (operator.kind = .or) = l.truthy then quietly (reveal settings .logical l)
    else
      let r ← under 1 (evaluate settings env right)
      quietly (reveal settings .logical r)
  | .unary operator operand => do
    let v ← under 0 (evaluate settings env operand)
    let result ← quietly (lift (Value.applyUnary operator v))
    quietly (reveal settings .unary result)
  | .binary left operator right => do
    let l ← under 0 (evaluate settings env left)
    let r ← under 1 (evaluate settings env right)
    let result ← quietly (lift (Value.applyBinary operator l r))
    quietly (reveal settings .binary result)

def testCondition (settings : Settings) (env : ScopeId) (condition : Expr) : Watched Bool := do
  let v ← under 0 (evaluate settings env condition)
  quietly (traceValue settings 3 v (.tested · v.truthy))
  return v.truthy

def loopTest (settings : Settings) (env : ScopeId) (condition : Expr) : Watched Bool := do
  return (← under 0 (evaluate settings env condition)).truthy

mutual

def execute (settings : Settings) (limit : Nat) (env : ScopeId) (s : Stmt) : Watched Unit :=
  called (.execute env (.statement s)) <| match s with
  | .print value => do
    let v ← under 0 (evaluate settings env value)
    let shown ← quietly (lift v.toText)
    quietly (send settings.streams (.printed shown))
  | .expression value => do
    let _ ← under 0 (evaluate settings env value)
  | .declare name none => quietly (declareVariable settings env name .null)
  | .declare name (some initial) => do
    let v ← under 0 (evaluate settings env initial)
    quietly (declareVariable settings env name v)
  | .block body => under 0 (within settings env fun inner => executeAll settings limit inner body)
  | .ifThen condition yes => do
    if ← testCondition settings env condition then under 1 (execute settings limit env yes)
  | .ifThenElse condition yes no => do
    if ← testCondition settings env condition then under 1 (execute settings limit env yes)
    else under 2 (execute settings limit env no)
  | .loop condition body => do
    let test := loopTest settings env condition
    let rounds ← repeatWhile test (under 1 (execute settings limit env body)) limit 0
    quietly (trace settings (.looped rounds))

def executeAll (settings : Settings) (limit : Nat) (env : ScopeId) : List Stmt → Watched Unit
  | [] => pure ()
  | s :: rest => do
    under 0 (execute settings limit env s)
    under 1 (executeAll settings limit env rest)

end

def runProgram (settings : Settings) (limit : Nat) (p : Program) : Watched Unit :=
  running settings (executeAll settings limit globalScope p.statements)

@[simp] theorem erase_pure (a : α) : (pure a : Watched α).erase = pure a := rfl

@[simp] theorem erase_bind (x : Watched α) (f : α → Watched β) :
    (x >>= f).erase = x.erase >>= fun a => (f a).erase := by
  funext m
  change ((Watched.bind x f m).1.2, (Watched.bind x f m).2) = Action.bind _ _ m
  unfold Watched.bind Action.bind erase
  generalize x m = after
  obtain ⟨⟨log, result⟩, n⟩ := after
  cases result with
  | ok a => rfl
  | error stop => rfl

@[simp] theorem erase_ite {p : Prop} [Decidable p] (x y : Watched α) :
    (if p then x else y).erase = if p then x.erase else y.erase :=
  apply_ite erase p x y

@[simp] theorem erase_quietly (x : Action α) : (quietly x).erase = x := rfl

@[simp] theorem erase_called (call : Call) (x : Watched α) : (called call x).erase = x.erase := rfl

@[simp] theorem erase_under (part : Nat) (x : Watched α) : (under part x).erase = x.erase := rfl

@[simp] theorem erase_within (settings : Settings) (env : ScopeId) (body : ScopeId → Watched α) :
    (within settings env body).erase =
      Action.within settings env fun inner => (body inner).erase := rfl

@[simp] theorem erase_repeatWhile (test : Watched Bool) (body : Watched Unit)
    (limit rounds : Nat) : (repeatWhile test body limit rounds).erase =
      Action.repeatWhile test.erase body.erase limit rounds := by
  induction limit generalizing rounds with
  | zero => rfl
  | succ limit ih =>
    simp only [repeatWhile, Action.repeatWhile, erase_bind, erase_ite, ih, erase_pure]

@[simp] theorem erase_running (settings : Settings) (body : Watched Unit) :
    (running settings body).erase = Run.running settings body.erase := rfl

section

variable (settings : Settings) (limit : Nat)

@[simp] theorem erase_evaluate (env : ScopeId) (e : Expr) :
    (evaluate settings env e).erase = Run.evaluate settings env e := by
  induction e with
  | literal | var => simp [evaluate, Run.evaluate]
  | grouping inner ih | assign name inner ih | unary operator inner ih =>
    simp [evaluate, Run.evaluate, ih]
  | logical left operator right ihLeft ihRight | binary left operator right ihLeft ihRight =>
    simp [evaluate, Run.evaluate, ihLeft, ihRight]

@[simp] theorem erase_testCondition (env : ScopeId) (condition : Expr) :
    (testCondition settings env condition).erase = Run.testCondition settings env condition := by
  simp [testCondition, Run.testCondition]

@[simp] theorem erase_loopTest (env : ScopeId) (condition : Expr) :
    (loopTest settings env condition).erase = Run.loopTest settings env condition := by
  simp [loopTest, Run.loopTest]

end

mutual

theorem erase_execute (settings : Settings) (limit : Nat) (env : ScopeId) :
    ∀ s : Stmt, (execute settings limit env s).erase = Run.execute settings limit env s
  | .print _ | .expression _ | .declare _ none | .declare _ (some _) => by
    simp [execute, Run.execute]
  | .block body => by
    simp [execute, Run.execute, fun inner => erase_executeAll settings limit inner body]
  | .ifThen _ yes => by
    simp [execute, Run.execute, erase_execute settings limit env yes]
  | .ifThenElse _ yes no => by
    simp [execute, Run.execute, erase_execute settings limit env yes,
      erase_execute settings limit env no]
  | .loop _ body => by
    simp [execute, Run.execute, erase_execute settings limit env body]

theorem erase_executeAll (settings : Settings) (limit : Nat) (env : ScopeId) :
    ∀ body : List Stmt,
      (executeAll settings limit env body).erase = Run.executeAll settings limit env body
  | [] => by
    simp [executeAll, Run.executeAll]
  | s :: rest => by
    simp [executeAll, Run.executeAll, erase_execute settings limit env s,
      erase_executeAll settings limit env rest]

end

/-- A watched run is the run. -/
theorem erase_runProgram (settings : Settings) (limit : Nat) (p : Program) :
    (runProgram settings limit p).erase = Run.runProgram settings limit p := by
  rw [runProgram, erase_running, erase_executeAll, Run.runProgram]

section

variable {moment : Moment} {m : Machine}

theorem mem_log_bind {x : Watched α} {f : α → Watched β} : moment ∈ (x >>= f).log m ↔
    moment ∈ x.log m ∨ ∃ a n, x.erase m = (.ok a, n) ∧ moment ∈ (f a).log n := by
  change moment ∈ (Watched.bind x f m).1.1 ↔ _
  unfold Watched.bind log erase
  generalize x m = after
  obtain ⟨⟨before, result⟩, n⟩ := after
  cases result with
  | ok a => simp
  | error stop => simp

theorem mem_log_called {call : Call} {x : Watched α} :
    moment ∈ (called call x).log m ↔ moment = ⟨[], call, m⟩ ∨ moment ∈ x.log m :=
  List.mem_cons

theorem mem_log_under {part : Nat} {x : Watched α} {place : List Nat} {call : Call}
    {n : Machine} : ⟨place, call, n⟩ ∈ (under part x).log m ↔
      ∃ rest, place = part :: rest ∧ ⟨rest, call, n⟩ ∈ x.log m := by
  change _ ∈ List.map _ (x.log m) ↔ _
  simp only [List.mem_map, Moment.mk.injEq]
  constructor
  · rintro ⟨⟨rest, _, _⟩, member, rfl, rfl, rfl⟩
    exact ⟨rest, rfl, member⟩
  · rintro ⟨rest, rfl, member⟩
    exact ⟨_, member, rfl, rfl, rfl⟩

theorem mem_log_first {x : Watched α} {f : α → Watched β} (member : moment ∈ x.log m) :
    moment ∈ (x >>= f).log m :=
  mem_log_bind.2 (.inl member)

theorem mem_log_second {x : Watched α} {f : α → Watched β} {a : α} {n : Machine}
    (ran : x.erase m = (.ok a, n)) (member : moment ∈ (f a).log n) : moment ∈ (x >>= f).log m :=
  mem_log_bind.2 (.inr ⟨a, n, ran, member⟩)

theorem mem_log_inside {call : Call} {x : Watched α} (member : moment ∈ x.log m) :
    moment ∈ (called call x).log m :=
  mem_log_called.2 (.inr member)

theorem mem_log_part {part : Nat} {x : Watched α} {place : List Nat} {call : Call} {n : Machine}
    (member : ⟨place, call, n⟩ ∈ x.log m) : ⟨part :: place, call, n⟩ ∈ (under part x).log m :=
  mem_log_under.2 ⟨place, rfl, member⟩

end

end Watched

def Task.call? : Task → Option Call
  | .statement env s => some (.execute env (.statement s))
  | .expression env e => some (.evaluate env (.expression e))
  | .program _ | .statements _ _ | .rounds _ _ _ _ _ => none

def Task.log (settings : Settings) (limit : Nat) : Task → Machine → Log
  | .program p => (Watched.runProgram settings limit p).log
  | .statements env body => (Watched.executeAll settings limit env body).log
  | .statement env s => (Watched.execute settings limit env s).log
  | .rounds env condition body left done =>
    (Watched.repeatWhile (Watched.loopTest settings env condition)
      (Watched.under 1 (Watched.execute settings limit env body)) left done).log
  | .expression env e => (Watched.evaluate settings env e).log

namespace Watched

variable {settings : Settings} {limit : Nat} {task inner last : Task} {m m' n : Machine}
  {part place : List Nat} {call : Call}

theorem mem_log_self (starts : task.call? = some call) :
    ⟨[], call, m⟩ ∈ task.log settings limit m := by
  cases task with
  | statement env s =>
    cases starts
    unfold Task.log Watched.execute
    exact List.mem_cons_self
  | expression env e =>
    cases starts
    unfold Task.log Watched.evaluate
    exact List.mem_cons_self
  | _ => cases starts

theorem mem_log_of_calls (calls : Calls settings limit task m part inner n)
    (member : ⟨place, call, m'⟩ ∈ inner.log settings limit n) :
    ⟨part ++ place, call, m'⟩ ∈ task.log settings limit m := by
  cases calls with
  | program => exact member
  | first =>
    rw [Task.log, executeAll]
    exact mem_log_first (mem_log_part member)
  | next ran =>
    rw [← erase_execute] at ran
    rw [Task.log, executeAll]
    exact mem_log_second ran (mem_log_part member)
  | @value env s e m starts =>
    unfold firstValue? at starts
    split at starts <;> cases starts <;> rw [Task.log, execute]
    · exact mem_log_inside (mem_log_first (mem_log_part member))
    · exact mem_log_inside (mem_log_first (mem_log_part member))
    · exact mem_log_inside (mem_log_first (mem_log_part member))
    · exact mem_log_inside (mem_log_first (mem_log_first (mem_log_part member)))
    · exact mem_log_inside (mem_log_first (mem_log_first (mem_log_part member)))
  | block =>
    rw [Task.log, execute]
    exact mem_log_inside (mem_log_part member)
  | alone tested | yes tested | no tested =>
    rw [← erase_testCondition] at tested
    rw [Task.log, execute]
    refine mem_log_inside (mem_log_second tested ?_)
    exact mem_log_part member
  | loop =>
    rw [Task.log, execute]
    exact mem_log_inside (mem_log_first member)
  | test =>
    rw [Task.log, repeatWhile]
    exact mem_log_first (mem_log_first (mem_log_part member))
  | round tested =>
    rw [← erase_loopTest] at tested
    rw [Task.log, repeatWhile]
    refine mem_log_second tested ?_
    exact mem_log_first (mem_log_part member)
  | again tested ran =>
    rw [← erase_loopTest] at tested
    rw [← erase_execute] at ran
    rw [Task.log, repeatWhile]
    refine mem_log_second tested ?_
    exact mem_log_second ran member
  | @operand env whole e m starts =>
    unfold firstOperand? at starts
    split at starts <;> cases starts <;> rw [Task.log, evaluate] <;>
      exact mem_log_inside (mem_log_first (mem_log_part member))
  | logical evaluated goesOn =>
    rw [← erase_evaluate] at evaluated
    rw [Task.log, evaluate]
    refine mem_log_inside (mem_log_second evaluated ?_)
    rw [if_neg goesOn]
    exact mem_log_first (mem_log_part member)
  | binary evaluated =>
    rw [← erase_evaluate] at evaluated
    rw [Task.log, evaluate]
    refine mem_log_inside (mem_log_second evaluated ?_)
    exact mem_log_first (mem_log_part member)

def Silent {α : Type} (x : Watched α) : Prop := ∀ moment m, moment ∉ x.log m

theorem silent_pure {α : Type} (a : α) : Silent (pure a : Watched α) :=
  fun _ _ => List.not_mem_nil

theorem silent_quietly {α : Type} (x : Action α) : Silent (quietly x) :=
  fun _ _ => List.not_mem_nil

theorem Silent.bind {α β : Type} {x : Watched α} {f : α → Watched β} (first : x.Silent)
    (second : ∀ a, (f a).Silent) : (x >>= f).Silent := by
  intro moment m member
  rcases mem_log_bind.1 member with before | ⟨a, n, -, later⟩
  · exact first moment m before
  · exact second a moment n later

/-- A call is logged by a task that another one calls. -/
def Passed (settings : Settings) (limit : Nat) (task : Task) (m : Machine) (place : List Nat)
    (call : Call) (m' : Machine) : Prop :=
  ∃ part inner n rest, Calls settings limit task m part inner n ∧ place = part ++ rest ∧
    ⟨rest, call, m'⟩ ∈ inner.log settings limit n

theorem passed_of_part {number : Nat} (calls : Calls settings limit task m [number] inner n)
    (member : ∃ rest, place = number :: rest ∧ ⟨rest, call, m'⟩ ∈ inner.log settings limit n) :
    Passed settings limit task m place call m' := by
  obtain ⟨rest, rfl, inside⟩ := member
  exact ⟨[number], inner, n, rest, calls, rfl, inside⟩

theorem passed_of_evaluate {env : ScopeId} {e : Expr}
    (member : ⟨place, call, m'⟩ ∈ (evaluate settings env e).log m) :
    ⟨place, call, m'⟩ = (⟨[], .evaluate env (.expression e), m⟩ : Moment) ∨
      Passed settings limit (.expression env e) m place call m' := by
  unfold evaluate at member
  refine (mem_log_called.1 member).imp_right fun member => ?_
  -- What comes behind the operands makes no calls.
  have tells (type : NodeType) (v : Value) := silent_quietly (reveal settings type v)
  cases e with
  | literal value => exact absurd member (tells _ _ _ _)
  | var name => exact absurd member ((silent_quietly _).bind (tells _) _ _)
  | grouping inner =>
    rcases mem_log_bind.1 member with first | ⟨v, n, -, later⟩
    · exact passed_of_part (.operand rfl) (mem_log_under.1 first)
    · exact absurd later (tells _ v _ _)
  | assign name value =>
    rcases mem_log_bind.1 member with first | ⟨v, n, -, later⟩
    · exact passed_of_part (.operand rfl) (mem_log_under.1 first)
    · exact absurd later ((silent_quietly _).bind (fun _ => tells _ v) _ _)
  | unary operator operand =>
    rcases mem_log_bind.1 member with first | ⟨v, n, -, later⟩
    · exact passed_of_part (.operand rfl) (mem_log_under.1 first)
    · exact absurd later ((silent_quietly _).bind (tells _) _ _)
  | logical left operator right =>
    rcases mem_log_bind.1 member with first | ⟨l, n, evaluated, later⟩
    · exact passed_of_part (.operand rfl) (mem_log_under.1 first)
    · rw [erase_under, erase_evaluate] at evaluated
      split at later
      · exact absurd later (tells _ l _ _)
      · next goesOn =>
        rcases mem_log_bind.1 later with second | ⟨r, n', -, last⟩
        · exact passed_of_part (.logical evaluated goesOn) (mem_log_under.1 second)
        · exact absurd last (tells _ r _ _)
  | binary left operator right =>
    rcases mem_log_bind.1 member with first | ⟨l, n, evaluated, later⟩
    · exact passed_of_part (.operand rfl) (mem_log_under.1 first)
    · rw [erase_under, erase_evaluate] at evaluated
      rcases mem_log_bind.1 later with second | ⟨r, n', -, last⟩
      · exact passed_of_part (.binary evaluated) (mem_log_under.1 second)
      · exact absurd last ((silent_quietly _).bind (tells _) _ _)

theorem mem_log_testCondition {env : ScopeId} {condition : Expr} {moment : Moment}
    (member : moment ∈ (testCondition settings env condition).log m) :
    moment ∈ (under 0 (evaluate settings env condition)).log m :=
  (mem_log_bind.1 member).resolve_right fun ⟨_, _, _, later⟩ =>
    (silent_quietly _).bind (fun _ => silent_pure _) _ _ later

theorem passed_of_execute {env : ScopeId} {s : Stmt}
    (member : ⟨place, call, m'⟩ ∈ (execute settings limit env s).log m) :
    ⟨place, call, m'⟩ = (⟨[], .execute env (.statement s), m⟩ : Moment) ∨
      Passed settings limit (.statement env s) m place call m' := by
  unfold execute at member
  refine (mem_log_called.1 member).imp_right fun member => ?_
  match s with
  | .print value =>
    rcases mem_log_bind.1 member with first | ⟨v, n, -, later⟩
    · exact passed_of_part (.value rfl) (mem_log_under.1 first)
    · exact absurd later ((silent_quietly _).bind (fun _ => silent_quietly _) _ _)
  | .expression value =>
    rcases mem_log_bind.1 member with first | ⟨v, n, -, later⟩
    · exact passed_of_part (.value rfl) (mem_log_under.1 first)
    · exact absurd later (silent_pure _ _ _)
  | .declare name none => exact absurd member (silent_quietly _ _ _)
  | .declare name (some initial) =>
    rcases mem_log_bind.1 member with first | ⟨v, n, -, later⟩
    · exact passed_of_part (.value rfl) (mem_log_under.1 first)
    · exact absurd later (silent_quietly _ _ _)
  | .block body => exact passed_of_part (.block env body m) (mem_log_under.1 member)
  | .ifThen condition yes =>
    rcases mem_log_bind.1 member with first | ⟨taken, n, tested, later⟩
    · exact passed_of_part (.value rfl) (mem_log_under.1 (mem_log_testCondition first))
    · rw [erase_testCondition] at tested
      cases taken with
      | true => exact passed_of_part (.alone tested) (mem_log_under.1 later)
      | false => exact absurd later (silent_pure _ _ _)
  | .ifThenElse condition yes no =>
    rcases mem_log_bind.1 member with first | ⟨taken, n, tested, later⟩
    · exact passed_of_part (.value rfl) (mem_log_under.1 (mem_log_testCondition first))
    · rw [erase_testCondition] at tested
      cases taken with
      | true => exact passed_of_part (.yes tested) (mem_log_under.1 later)
      | false => exact passed_of_part (.no tested) (mem_log_under.1 later)
  | .loop condition body =>
    rcases mem_log_bind.1 member with rounds | ⟨count, n, -, later⟩
    · exact ⟨[], _, m, place, .loop env condition body m, rfl, rounds⟩
    · exact absurd later (silent_quietly _ _ _)

theorem passed_of_rounds {env : ScopeId} {condition : Expr} {body : Stmt} {left done : Nat}
    (member : ⟨place, call, m'⟩ ∈
      (Task.rounds env condition body left done).log settings limit m) :
    Passed settings limit (.rounds env condition body left done) m place call m' := by
  cases left with
  | zero => exact absurd member (silent_quietly _ _ _)
  | succ left =>
    rw [Task.log, repeatWhile] at member
    rcases mem_log_bind.1 member with first | ⟨holds, n, tested, later⟩
    · have inside := (mem_log_bind.1 first).resolve_right fun ⟨_, _, _, last⟩ =>
        silent_pure _ _ _ last
      exact passed_of_part (.test env condition body left done m) (mem_log_under.1 inside)
    · rw [erase_loopTest] at tested
      cases holds with
      | false => exact absurd later (silent_pure _ _ _)
      | true =>
        rcases mem_log_bind.1 later with round | ⟨_, n', ran, again⟩
        · exact passed_of_part (.round tested) (mem_log_under.1 round)
        · rw [erase_under, erase_execute] at ran
          exact ⟨[], _, n', place, .again tested ran, rfl, again⟩

/-- A call that a task logs is the one that starts it, or is logged by a task that it calls. -/
theorem passed_of_mem_log (member : ⟨place, call, m'⟩ ∈ task.log settings limit m) :
    (task.call? = some call ∧ place = [] ∧ m' = m) ∨
      Passed settings limit task m place call m' := by
  cases task with
  | program p => exact .inr ⟨[], _, _, place, .program p m, rfl, member⟩
  | statements env body =>
    right
    cases body with
    | nil =>
      rw [Task.log, executeAll] at member
      exact absurd member (silent_pure _ _ _)
    | cons s rest =>
      rw [Task.log, executeAll] at member
      rcases mem_log_bind.1 member with first | ⟨_, n, ran, later⟩
      · exact passed_of_part (.first env s rest m) (mem_log_under.1 first)
      · rw [erase_under, erase_execute] at ran
        exact passed_of_part (.next ran) (mem_log_under.1 later)
  | statement env s =>
    refine (passed_of_execute member).imp_left ?_
    rintro ⟨⟩
    exact ⟨rfl, rfl, rfl⟩
  | rounds env condition body left done => exact .inr (passed_of_rounds member)
  | expression env e =>
    refine (passed_of_evaluate member).imp_left ?_
    rintro ⟨⟩
    exact ⟨rfl, rfl, rfl⟩

/-- The calls that a task logs are those that it comes to, each at its place. -/
theorem mem_log_iff_reaches : ⟨place, call, m'⟩ ∈ task.log settings limit m ↔
    ∃ last, last.call? = some call ∧ Reaches settings limit task m place last m' := by
  constructor
  · intro member
    induction task, m using Task.induction settings limit generalizing place with
    | step task m ih =>
      rcases passed_of_mem_log member with
        ⟨starts, rfl, rfl⟩ | ⟨part, inner, n, rest, calls, rfl, inside⟩
      · exact ⟨task, starts, .here task m'⟩
      · obtain ⟨last, starts, reaches⟩ := ih part inner n calls inside
        exact ⟨last, starts, .inside calls reaches⟩
  · rintro ⟨last, starts, reaches⟩
    induction reaches with
    | here => exact mem_log_self starts
    | inside calls _ ih => exact mem_log_of_calls calls (ih starts)

end Watched

end TreeWalk.Run
