import TreeWalk.Run.Event
import TreeWalk.Scope.Forest
import TreeWalk.Value.Operators

/-!
Actions of a run. An action works on a machine, which holds the scopes, the scope that is active
and the events so far. It ends with a result, with a fault, or unfinished, where a loop went round
more often than it was allowed to; the machine stays as it was left in each case. What is printed
and traced goes to streams, and a line that its stream cannot encode is a fault.
-/

set_option autoImplicit false

namespace TreeWalk.Run

/-- A stream that keeps every text as it is, or one that encodes texts in UTF-8. -/
inductive Stream where
  | any
  | utf8
  deriving DecidableEq, Repr

def Stream.takes : Stream → Text → Bool
  | .any, _ => true
  | .utf8, line => line.encodable

/-- Where a run prints to, and where its trace goes. -/
structure Streams where
  output : Stream
  log : Stream
  deriving DecidableEq, Repr

/-- Whether the line of an event can be written to its stream. -/
def Streams.take (streams : Streams) : Event → Bool
  | .printed text => streams.output.takes text
  | .traced message => streams.log.takes message.text

structure Settings where
  /-- Reading a name that is not bound is an error, not null. -/
  strict : Bool
  /-- The highest level of messages that are traced. -/
  verbosity : Nat
  streams : Streams
  deriving DecidableEq, Repr

structure Machine where
  scopes : Forest
  cursor : ScopeId
  events : Array Event

inductive Stop where
  | fault (f : Fault)
  | unfinished
  deriving DecidableEq, Repr

def globalScope : ScopeId := 0

namespace Machine

/-- A machine whose outermost scope holds these variables. -/
def start (globals : Bindings) : Machine := ⟨.single globals, globalScope, #[]⟩

def globals (m : Machine) : Bindings := m.scopes.bindings globalScope

def emit (m : Machine) (e : Event) : Machine := { m with events := m.events.push e }

/-- Traces a message that the verbosity reaches and that every stream takes. -/
def trace (settings : Settings) (message : Message) (m : Machine) : Machine :=
  if message.level ≤ settings.verbosity then m.emit (.traced message) else m

end Machine

/-- The machine where a new scope inside of another one becomes active. -/
def entered (settings : Settings) (env : ScopeId) (m : Machine) : Machine :=
  let scopes := m.scopes.push (some env)
  Machine.trace settings (.entered (scopes.depth m.scopes.size)) ⟨scopes, m.scopes.size, m.events⟩

/-- The machine after the work in a scope that was entered from the machine `m`. -/
def left (settings : Settings) (env : ScopeId) (m after : Machine) : Machine :=
  let depth := (m.scopes.push (some env)).depth m.scopes.size
  Machine.trace settings (.left depth) { after with cursor := m.cursor }

/-- Works in a new scope, which is the active one until the work ends, in whatever way. -/
def inScope {β : Type} (settings : Settings) (env : ScopeId)
    (body : ScopeId → Machine → β × Machine) (m : Machine) : β × Machine :=
  let (result, after) := body m.scopes.size (entered settings env m)
  (result, left settings env m after)

def Action (α : Type) := Machine → Except Stop α × Machine

namespace Action

variable {α β : Type}

@[inline] protected def pure (a : α) : Action α := fun m => (.ok a, m)

@[inline] protected def bind (x : Action α) (f : α → Action β) : Action β := fun m =>
  match x m with
  | (.ok a, m) => f a m
  | (.error stop, m) => (.error stop, m)

instance : Monad Action where
  pure := Action.pure
  bind := Action.bind

theorem bind_apply (x : Action α) (f : α → Action β) (m : Machine) :
    (x >>= f) m =
      match x m with
      | (.ok a, m) => f a m
      | (.error stop, m) => (.error stop, m) := rfl

@[inline] def stop (s : Stop) : Action α := fun m => (.error s, m)

@[inline] def fail (f : Fault) : Action α := stop (.fault f)

@[inline] def lift : Except Fault α → Action α
  | .ok a => Action.pure a
  | .error f => fail f

@[inline] def read (f : Machine → α) : Action α := fun m => (.ok (f m), m)

@[inline] def update (f : Machine → Machine) : Action Unit := fun m => (.ok (), f m)

/-- Writes the line of an event to its stream. -/
def send (streams : Streams) (e : Event) : Action Unit :=
  if streams.take e then update (·.emit e) else fail (.unencodable e.line)

def trace (settings : Settings) (message : Message) : Action Unit :=
  if message.level ≤ settings.verbosity then send settings.streams (.traced message)
  else pure ()

/-- Traces a message about a value; the value is shown only where the verbosity reaches the
message. -/
def traceValue (settings : Settings) (level : Nat) (v : Value) (message : Text → Message) :
    Action Unit :=
  if level ≤ settings.verbosity then do
    let shown ← lift v.toText
    trace settings (message shown)
  else pure ()

def nameOf (t : Token) : Action Name :=
  match Name.ofJson t.text with
  | .ok name => pure name
  | .error kind => fail (.unhashable kind)

def within (settings : Settings) (env : ScopeId) (body : ScopeId → Action α) : Action α :=
  inScope settings env body

/-- Repeats an action while a test holds and counts the rounds; it goes on for at most `limit`
tests. -/
def repeatWhile (test : Action Bool) (body : Action Unit) : (limit rounds : Nat) → Action Nat
  | 0, _ => stop .unfinished
  | limit + 1, rounds => do
    if ← test then
      body
      repeatWhile test body limit (rounds + 1)
    else
      return rounds

end Action

end TreeWalk.Run
