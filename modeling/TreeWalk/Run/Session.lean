import TreeWalk.Run.Evaluate

/-!
Sessions: actions on one machine, one after the other, so that variables stay. A session that
traces writes its messages to a file until the file is closed, and prints them from then on.
-/

set_option autoImplicit false

namespace TreeWalk.Run

structure Session where
  settings : Settings
  machine : Machine
  tracing : Bool

namespace Session

def start (settings : Settings) : Session :=
  ⟨settings, .start [], 0 < settings.verbosity⟩

/-- The machine at which an action of a session starts. -/
def ready (s : Session) : Machine := { s.machine with events := #[] }

/-- Acts, and tells the events of this action alone. -/
def act {α : Type} (s : Session) (action : Action α) :
    Except Stop α × List Event × Session :=
  let (result, machine) := action s.ready
  (result, machine.events.toList, { s with machine })

/-- Closes the file of the trace, which goes to the output from then on. -/
def close (s : Session) : Session :=
  { s with
    settings := { s.settings with streams.log := s.settings.streams.output }
    tracing := false }

def globals (s : Session) : Bindings := s.machine.globals

def depth (s : Session) : Nat := s.machine.scopes.depth s.machine.cursor

def output (s : Session) (events : List Event) : Text :=
  textOf (events.filterMap fun
    | .printed text => some text
    | .traced m => if s.tracing then none else some m.text)

/-- What events add to the file of the trace. -/
def traceText (s : Session) (events : List Event) : Text :=
  if s.tracing then textOf (events.filterMap fun e => e.message?.map Message.text) else []

end Session

end TreeWalk.Run
