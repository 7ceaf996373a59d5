import TreeWalk.Proofs.Run.Safety

/-!
The machines that a run passes through. A task calls other tasks, each from the machine as the work
before it left it, and the run visits the machines at which its tasks start and end. Scopes change
only where a block starts and where a declaration or an assignment ends, so all scopes of a run are
seen. They bind plain values throughout.
-/

set_option autoImplicit false

namespace TreeWalk.Run

/-- A part of a run: what is run, in which scope. -/
inductive Task where
  | program (p : Program)
  | statements (env : ScopeId) (body : List Stmt)
  | statement (env : ScopeId) (s : Stmt)
  | rounds (env : ScopeId) (condition : Expr) (body : Stmt) (left done : Nat)
  | expression (env : ScopeId) (e : Expr)

def Task.scope : Task → ScopeId
  | .program _ => globalScope
  | .statements env _ | .statement env _ | .rounds env _ _ _ _ | .expression env _ => env

def Task.after (settings : Settings) (limit : Nat) : Task → Machine → Machine
  | .program p, m => (runProgram settings limit p m).2
  | .statements env body, m => (executeAll settings limit env body m).2
  | .statement env s, m => (execute settings limit env s m).2
  | .rounds env condition body left done, m =>
    (Action.repeatWhile (loopTest settings env condition) (execute settings limit env body) left
      done m).2
  | .expression env e, m => (evaluate settings env e m).2

def Task.names : Task → List Token
  | .program p => Stmt.namesAll p.statements
  | .statements _ body => Stmt.namesAll body
  | .statement _ s => s.names
  | .rounds _ condition body _ _ => condition.names ++ body.names
  | .expression _ e => e.names

/-- The expression that is evaluated first when a statement is executed. -/
def firstValue? : Stmt → Option Expr
  | .print e | .expression e | .declare _ (some e) | .ifThen e _ | .ifThenElse e _ _ => some e
  | .declare _ none | .block _ | .loop _ _ => none

/-- The expression that is evaluated first when an expression is. -/
def firstOperand? : Expr → Option Expr
  | .grouping e | .assign _ e | .logical e _ _ | .unary _ e | .binary e _ _ => some e
  | .literal _ | .var _ => none

/-- A task at a machine calls a task at a machine. The second one is at a place of the first: the
way down to a part of its tree, where parts are numbered in the order of the text and the statements
behind the first one of a list are one part. -/
inductive Calls (settings : Settings) (limit : Nat) :
    Task → Machine → List Nat → Task → Machine → Prop where
  | program (p : Program) (m : Machine) :
    Calls settings limit (.program p) m [] (.statements globalScope p.statements)
      (m.trace settings .started)
  | first (env : ScopeId) (s : Stmt) (rest : List Stmt) (m : Machine) :
    Calls settings limit (.statements env (s :: rest)) m [0] (.statement env s) m
  | next {env : ScopeId} {s : Stmt} {rest : List Stmt} {m m' : Machine}
    (ran : execute settings limit env s m = (.ok (), m')) :
    Calls settings limit (.statements env (s :: rest)) m [1] (.statements env rest) m'
  | value {env : ScopeId} {s : Stmt} {e : Expr} {m : Machine} (starts : firstValue? s = some e) :
    Calls settings limit (.statement env s) m [0] (.expression env e) m
  | block (env : ScopeId) (body : List Stmt) (m : Machine) :
    Calls settings limit (.statement env (.block body)) m [0] (.statements m.scopes.size body)
      (entered settings env m)
  | alone {env : ScopeId} {condition : Expr} {yes : Stmt} {m m' : Machine}
    (tested : testCondition settings env condition m = (.ok true, m')) :
    Calls settings limit (.statement env (.ifThen condition yes)) m [1] (.statement env yes) m'
  | yes {env : ScopeId} {condition : Expr} {yes no : Stmt} {m m' : Machine}
    (tested : testCondition settings env condition m = (.ok true, m')) :
    Calls settings limit (.statement env (.ifThenElse condition yes no)) m [1]
      (.statement env yes) m'
  | no {env : ScopeId} {condition : Expr} {yes no : Stmt} {m m' : Machine}
    (tested : testCondition settings env condition m = (.ok false, m')) :
    Calls settings limit (.statement env (.ifThenElse condition yes no)) m [2]
      (.statement env no) m'
  | loop (env : ScopeId) (condition : Expr) (body : Stmt) (m : Machine) :
    Calls settings limit (.statement env (.loop condition body)) m []
      (.rounds env condition body limit 0) m
  | test (env : ScopeId) (condition : Expr) (body : Stmt) (left done : Nat) (m : Machine) :
    Calls settings limit (.rounds env condition body (left + 1) done) m [0]
      (.expression env condition) m
  | round {env : ScopeId} {condition : Expr} {body : Stmt} {left done : Nat} {m m' : Machine}
    (tested : loopTest settings env condition m = (.ok true, m')) :
    Calls settings limit (.rounds env condition body (left + 1) done) m [1]
      (.statement env body) m'
  | again {env : ScopeId} {condition : Expr} {body : Stmt} {left done : Nat}
    {m m' m'' : Machine} (tested : loopTest settings env condition m = (.ok true, m'))
    (ran : execute settings limit env body m' = (.ok (), m'')) :
    Calls settings limit (.rounds env condition body (left + 1) done) m []
      (.rounds env condition body left (done + 1)) m''
  | operand {env : ScopeId} {whole e : Expr} {m : Machine} (starts : firstOperand? whole = some e) :
    Calls settings limit (.expression env whole) m [0] (.expression env e) m
  | logical {env : ScopeId} {left right : Expr} {operator : Token} {v : Value} {m m' : Machine}
    (evaluated : evaluate settings env left m = (.ok v, m'))
    (goesOn : decide (operator.kind = .or) ≠ v.truthy) :
    Calls settings limit (.expression env (.logical left operator right)) m [1]
      (.expression env right) m'
  | binary {env : ScopeId} {left right : Expr} {operator : Token} {v : Value} {m m' : Machine}
    (evaluated : evaluate settings env left m = (.ok v, m')) :
    Calls settings limit (.expression env (.binary left operator right)) m [1]
      (.expression env right) m'

/-- A task comes to another one by calls, at a place of its own tree. -/
inductive Reaches (settings : Settings) (limit : Nat) :
    Task → Machine → List Nat → Task → Machine → Prop where
  | here (task : Task) (m : Machine) : Reaches settings limit task m [] task m
  | inside {task inner last : Task} {m m' m'' : Machine} {part place : List Nat}
    (call : Calls settings limit task m part inner m')
    (later : Reaches settings limit inner m' place last m'') :
    Reaches settings limit task m (part ++ place) last m''

/-- The machines at which a task and those that it comes to start and end. -/
def Visits (settings : Settings) (limit : Nat) (task : Task) (m seen : Machine) : Prop :=
  ∃ last place m', Reaches settings limit task m place last m' ∧
    (seen = m' ∨ seen = last.after settings limit m')

/-- The tokens, the names and the constants of a task are such as the risks allow for. -/
def Task.Parts (risks : Risks) (ts : List Token) : Task → Prop
  | .program p => Run.Parts risks ts p.tokens (Stmt.namesAll p.statements) p.constants
  | .statements _ body =>
    Run.Parts risks ts (Stmt.tokensAll body) (Stmt.namesAll body) (Stmt.constantsAll body)
  | .statement _ s => Run.Parts risks ts s.tokens s.names s.constants
  | .rounds _ condition body _ _ =>
    Run.Parts risks ts condition.tokens condition.names condition.constants ∧
      Run.Parts risks ts body.tokens body.names body.constants
  | .expression _ e => Run.Parts risks ts e.tokens e.names e.constants

section

variable {settings : Settings} {limit : Nat} {risks : Risks} {ts : List Token}
  {task inner last : Task} {m m' : Machine} {place : List Nat}

theorem parts_of_firstValue? {env : ScopeId} {s : Stmt} {e : Expr}
    (starts : firstValue? s = some e) (parts : (Task.statement env s).Parts risks ts) :
    (Task.expression env e).Parts risks ts := by
  unfold firstValue? at starts
  split at starts <;> cases starts <;>
    rw [Task.Parts, Stmt.tokens, Stmt.names, Stmt.constants] at parts
  · exact parts
  · exact parts
  · exact parts.name.2.2
  · exact parts.split.1
  · exact parts.split.1.split.1

theorem parts_of_firstOperand? {env : ScopeId} {whole e : Expr}
    (starts : firstOperand? whole = some e) (parts : (Task.expression env whole).Parts risks ts) :
    (Task.expression env e).Parts risks ts := by
  unfold firstOperand? at starts
  split at starts <;> cases starts
  · exact parts
  · exact parts.name.2.2
  · exact parts.split.1
  · exact parts.operator.2
  · exact parts.split.1

theorem parts_of_calls (call : Calls settings limit task m place inner m')
    (parts : task.Parts risks ts) : inner.Parts risks ts := by
  cases call with
  | program => exact parts
  | first =>
    rw [Task.Parts, Stmt.tokensAll, Stmt.namesAll, Stmt.constantsAll] at parts
    exact parts.split.1
  | next =>
    rw [Task.Parts, Stmt.tokensAll, Stmt.namesAll, Stmt.constantsAll] at parts
    exact parts.split.2
  | value starts => exact parts_of_firstValue? starts parts
  | block =>
    rw [Task.Parts, Stmt.tokens, Stmt.names, Stmt.constants] at parts
    exact parts
  | alone | no =>
    rw [Task.Parts, Stmt.tokens, Stmt.names, Stmt.constants] at parts
    exact parts.split.2
  | yes =>
    rw [Task.Parts, Stmt.tokens, Stmt.names, Stmt.constants] at parts
    exact parts.split.1.split.2
  | loop =>
    rw [Task.Parts, Stmt.tokens, Stmt.names, Stmt.constants] at parts
    exact parts.split
  | test => exact parts.1
  | round => exact parts.2
  | again => exact parts
  | operand starts => exact parts_of_firstOperand? starts parts
  | logical | binary => exact parts.split.2.operator.2

theorem parts_of_reaches (reaches : Reaches settings limit task m place last m')
    (parts : task.Parts risks ts) : last.Parts risks ts := by
  induction reaches with
  | here => exact parts
  | inside call _ ih => exact ih (parts_of_calls call parts)

theorem plain_of_calls (loops : risks.loops) (call : Calls settings limit task m place inner m')
    (parts : task.Parts risks ts) (plain : m.scopes.Plain risks.halves) :
    m'.scopes.Plain risks.halves := by
  cases call with
  | program =>
    rw [scopes_trace]
    exact plain
  | first | value | loop | test | operand => exact plain
  | next ran =>
    rw [Task.Parts, Stmt.tokensAll, Stmt.namesAll, Stmt.constantsAll] at parts
    exact (safe_execute settings limit _ loops _ parts.split.1).plain plain ran
  | block env body => exact plain_entered settings env plain
  | alone tested =>
    rw [Task.Parts, Stmt.tokens, Stmt.names, Stmt.constants] at parts
    exact (safe_testCondition settings _ parts.split.1).plain plain tested
  | yes tested | no tested =>
    rw [Task.Parts, Stmt.tokens, Stmt.names, Stmt.constants] at parts
    exact (safe_testCondition settings _ parts.split.1.split.1).plain plain tested
  | round tested => exact (safe_loopTest settings _ parts.1).plain plain tested
  | again tested ran =>
    have between := (safe_loopTest settings _ parts.1).plain plain tested
    exact (safe_execute settings limit _ loops _ parts.2).plain between ran
  | logical evaluated | binary evaluated =>
    exact (safe_evaluate settings _ parts.split.1).plain plain evaluated

theorem plain_of_reaches (loops : risks.loops)
    (reaches : Reaches settings limit task m place last m') (parts : task.Parts risks ts)
    (plain : m.scopes.Plain risks.halves) : m'.scopes.Plain risks.halves := by
  induction reaches with
  | here => exact plain
  | inside call _ ih => exact ih (parts_of_calls call parts) (plain_of_calls loops call parts plain)

theorem plain_after (loops : risks.loops) (parts : task.Parts risks ts)
    (plain : m.scopes.Plain risks.halves) :
    (task.after settings limit m).scopes.Plain risks.halves := by
  cases task with
  | program p => exact (safe_runProgram settings limit loops parts).keeps m plain
  | statements env body =>
    exact (safe_executeAll settings limit env loops body parts).keeps m plain
  | statement env s => exact (safe_execute settings limit env loops s parts).keeps m plain
  | rounds env condition body left done =>
    exact (safe_repeatWhile loops (safe_loopTest settings env parts.1)
      (safe_execute settings limit env loops body parts.2) left done).keeps m plain
  | expression env e => exact (safe_evaluate settings env parts).keeps m plain

/-- All machines that a run visits bind plain values. -/
theorem plain_of_visits {seen : Machine} (loops : risks.loops)
    (visits : Visits settings limit task m seen) (parts : task.Parts risks ts)
    (plain : m.scopes.Plain risks.halves) : seen.scopes.Plain risks.halves := by
  obtain ⟨last, place, m', reaches, seen_eq⟩ := visits
  have lastPlain := plain_of_reaches loops reaches parts plain
  rcases seen_eq with rfl | rfl
  · exact lastPlain
  · exact plain_after loops (parts_of_reaches reaches parts) lastPlain

end

/-- A task comes to a loop that has gone round as often as it may. -/
def Exhausts (settings : Settings) (limit : Nat) (task : Task) (m : Machine) : Prop :=
  ∃ env condition body place m',
    Reaches settings limit task m place (.rounds env condition body 0 limit) m'

end TreeWalk.Run
