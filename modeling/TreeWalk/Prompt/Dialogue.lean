import TreeWalk.Prompt.Snippet
import TreeWalk.Run.Session

/-!
The interactive prompt. Lines are collected until their braces balance and then run in one session;
an error is reported and the dialogue goes on.
-/

set_option autoImplicit false

namespace TreeWalk.Prompt

open Run

/-- The lines that end the dialogue. -/
def quitCommands : List String := [":q", ":quit", "quit", "exit"]

/-- Where a dialogue stands: the lines of a snippet that is not complete, oldest first, and their
balance of braces. -/
structure Dialogue where
  session : Session
  lines : List String
  balance : Int

structure Turn where
  prompt : String
  out : Text
  err : Text
  trace : Text
  deriving DecidableEq, Repr

inductive Ending where
  | left
  | stopped (s : Stop)
  deriving DecidableEq, Repr

inductive Input where
  | line (s : String)
  | interrupt
  deriving DecidableEq, Repr

namespace Dialogue

def start (session : Session) : Dialogue := ⟨session, [], 0⟩

def prompt (d : Dialogue) : String := if d.lines.isEmpty then "spartie> " else "...> "

def quiet (d : Dialogue) : Turn := ⟨d.prompt, [], [], []⟩

/-- The last turn of a dialogue whose input ends; an incomplete snippet is given up. -/
def farewell (d : Dialogue) : Turn :=
  if d.lines.isEmpty then d.quiet
  else
    { d.quiet with
      err := s!"incomplete input discarded ({d.lines.length} line(s), unclosed block)\n" }

inductive Effect where
  | quit
  | wait (next : Dialogue)
  | ran (turn : Turn) (next : Dialogue)
  | stopped (turn : Turn) (session : Session) (s : Stop)

def run (limit : Nat) (d : Dialogue) (source : String) : Effect :=
  match parseSnippet source with
  | .error e => .ran { d.quiet with err := (Report.ofSyntax e).summary ++ "\n" } (start d.session)
  | .ok program =>
    let (result, events, session) := d.session.act (runProgram d.session.settings limit program)
    let turn := { d.quiet with out := session.output events, trace := session.traceText events }
    match result with
    | .ok () => .ran turn (start session)
    | .error (.fault (.report r)) => .ran { turn with err := r.summary ++ "\n" } (start session)
    | .error s => .stopped turn session s

/-- Takes a line: a command to quit or a blank line counts only where no snippet is open. -/
def feed (limit : Nat) (d : Dialogue) (line : String) : Effect :=
  let stripped := Text.strip line
  if d.lines.isEmpty && quitCommands.contains stripped then .quit
  else if d.lines.isEmpty && stripped.isEmpty then .wait d
  else
    let lines := d.lines ++ [line]
    let balance := d.balance + braceBalance line
    if 0 < balance then .wait { d with lines, balance }
    else d.run limit (String.intercalate "\n" lines ++ "\n")

/-- Holds a dialogue until the input ends, the user quits or a fault that is no report ends it. -/
def hold (limit : Nat) (d : Dialogue) : List Input → List Turn × Session × Ending
  | [] => ([d.farewell], d.session, .left)
  | .interrupt :: _ => ([d.farewell], d.session, .left)
  | .line s :: inputs =>
    match d.feed limit s with
    | .quit => ([d.quiet], d.session, .left)
    | .wait next =>
      let (turns, session, ending) := hold limit next inputs
      (d.quiet :: turns, session, ending)
    | .ran turn next =>
      let (turns, session, ending) := hold limit next inputs
      (turn :: turns, session, ending)
    | .stopped turn session s => ([turn], session, .stopped s)

end Dialogue

end TreeWalk.Prompt
