import TreeWalk.Run.Action

/-!
Running trees. Expressions are evaluated and statements executed in a scope; a block makes a scope
of its own. The value of every expression is traced, as are declarations, assignments, conditions,
loops and scopes.
-/

set_option autoImplicit false

namespace TreeWalk.Run

open TreeWalk.Run.Action

def readVariable (settings : Settings) (env : ScopeId) (name : Token) : Action Value := do
  let key ← nameOf name
  match ← read (·.scopes.get? env key) with
  | some v => return v
  | none =>
    if settings.strict then fail (.report (.undefinedVariable name.display (some name.line)))
    else return .null

/-- Gives a variable a new value where it is bound. -/
def assignVariable (settings : Settings) (env : ScopeId) (name : Token) (v : Value) :
    Action Unit := do
  let key ← nameOf name
  match ← read (·.scopes.resolve env key) with
  | some scope => update fun m => { m with scopes := m.scopes.define scope key v }
  | none => fail (.report (.undefinedVariable name.display (some name.line)))
  traceValue settings 2 v (.assigned name.display)

/-- Binds a variable in the scope itself. -/
def declareVariable (settings : Settings) (env : ScopeId) (name : Token) (v : Value) :
    Action Unit := do
  let key ← nameOf name
  update fun m => { m with scopes := m.scopes.define env key v }
  traceValue settings 2 v (.declared name.display)

/-- Traces the value of an expression. -/
def reveal (settings : Settings) (type : NodeType) (v : Value) : Action Value := do
  traceValue settings 4 v (.valued type)
  return v

/-- Evaluates an expression. An `or` stops at a value that counts as true, any other logical
operator at one that does not. -/
def evaluate (settings : Settings) (env : ScopeId) : Expr → Action Value
  | .literal value => reveal settings .literal (.ofLiteral value)
  | .grouping inner => do
    let v ← evaluate settings env inner
    reveal settings .grouping v
  | .var name => do
    let v ← readVariable settings env name
    reveal settings .var v
  | .assign name value => do
    let v ← evaluate settings env value
    assignVariable settings env name v
    reveal settings .assign v
  | .logical left operator right => do
    let l ← evaluate settings env left
    if decide (operator.kind = .or) = l.truthy then reveal settings .logical l
    else
      let r ← evaluate settings env right
      reveal settings .logical r
  | .unary operator operand => do
    let v ← evaluate settings env operand
    let result ← lift (Value.applyUnary operator v)
    reveal settings .unary result
  | .binary left operator right => do
    let l ← evaluate settings env left
    let r ← evaluate settings env right
    let result ← lift (Value.applyBinary operator l r)
    reveal settings .binary result

def testCondition (settings : Settings) (env : ScopeId) (condition : Expr) : Action Bool := do
  let v ← evaluate settings env condition
  traceValue settings 3 v (.tested · v.truthy)
  return v.truthy

def loopTest (settings : Settings) (env : ScopeId) (condition : Expr) : Action Bool := do
  return (← evaluate settings env condition).truthy

mutual

/-- Executes a statement; each loop goes on for at most `limit` tests. -/
def execute (settings : Settings) (limit : Nat) (env : ScopeId) : Stmt → Action Unit
  | .print value => do
    let v ← evaluate settings env value
    let shown ← lift v.toText
    send settings.streams (.printed shown)
  | .expression value => do
    let _ ← evaluate settings env value
  | .declare name none => declareVariable settings env name .null
  | .declare name (some initial) => do
    let v ← evaluate settings env initial
    declareVariable settings env name v
  | .block body => within settings env fun inner => executeAll settings limit inner body
  | .ifThen condition yes => do
    if ← testCondition settings env condition then execute settings limit env yes
  | .ifThenElse condition yes no => do
    if ← testCondition settings env condition then execute settings limit env yes
    else execute settings limit env no
  | .loop condition body => do
    let test := loopTest settings env condition
    let rounds ← repeatWhile test (execute settings limit env body) limit 0
    trace settings (.looped rounds)

def executeAll (settings : Settings) (limit : Nat) (env : ScopeId) : List Stmt → Action Unit
  | [] => pure ()
  | s :: rest => do
    execute settings limit env s
    executeAll settings limit env rest

end

/-- A whole run: it says when it starts and how it ends, unless it ends with a fault that is no
report. -/
def running (settings : Settings) (body : Action Unit) : Action Unit := fun m =>
  match body (m.trace settings .started) with
  | (.ok (), m) => (.ok (), m.trace settings .finished)
  | (.error (.fault (.report r)), m) => (.error (.fault (.report r)), m.trace settings (.failed r))
  | (.error stop, m) => (.error stop, m)

def runProgram (settings : Settings) (limit : Nat) (p : Program) : Action Unit :=
  running settings (executeAll settings limit globalScope p.statements)

/-- Executes a part of a tree that should be a statement. -/
def executeNode (settings : Settings) (limit : Nat) : Node → Action Unit
  | .statement s => execute settings limit globalScope s
  | node => fail (.notExecutable node.typeName)

def executeNodes (settings : Settings) (limit : Nat) : List Node → Action Unit
  | [] => pure ()
  | node :: rest => do
    executeNode settings limit node
    executeNodes settings limit rest

def runNodes (settings : Settings) (limit : Nat) (nodes : List Node) : Action Unit :=
  running settings (executeNodes settings limit nodes)

/-- Runs a part of a tree that should be a program. -/
def runNode (settings : Settings) (limit : Nat) : Node → Action Unit
  | .program p => runProgram settings limit p
  | node => running settings (fail (.notIterable node.typeName))

/-- Evaluates a part of a tree that should be an expression. -/
def evaluateNode (settings : Settings) : Node → Action Value
  | .expression e => evaluate settings globalScope e
  | node => fail (.notEvaluable node.typeName)

end TreeWalk.Run
