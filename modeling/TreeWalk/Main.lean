import TreeWalk.CommandLine.Command

/-!
The program. Files and lines are read and written here; what is done with them is decided by the
commands.
-/

set_option autoImplicit false

namespace TreeWalk

open CommandLine

/-- Loops may go round as long as anyone can wait. -/
def loopLimit : Nat := 1 <<< 62

/-- Texts are printed in UTF-8, and the stack is taken to hold what was read. -/
def thisHost : Host := ⟨.utf8, none, fun _ _ => true⟩

def usage : String :=
  "usage: spartie [-h] [-v] [--strict] [--emit-ast SPARTIE_FILE | --ast AST_JSON_FILE] [program]"

/-- What stands at a path; `EISDIR` has the number 21. -/
def findEntry (p : Path) : IO (Option Entry) := do
  try
    let bytes ← IO.FS.readBinFile p.text
    return some (.file (bytes.toList.map (·.toNat)))
  catch
    | .inappropriateType _ code _ => return if code = 21 then some .directory else none
    | .noFileOrDirectory .. => return none
    | e => throw e

def findFiles (paths : List Path) : IO Files := do
  let entries ← paths.mapM fun p => return (p, ← findEntry p)
  return fun p => (entries.find? fun entry => entry.1 = p).bind (·.2)

def CommandLine.Command.paths : Command → List Path
  | .emit path => [.ofString path, treePath (.ofString path)]
  | .tree path => [.ofString path, tracePath]
  | .source path => [.ofString path, tracePath]
  | .dialogue => [tracePath]

def exitStatus (ending : Ending) : IO UInt32 := do
  match ending with
  | .exit status => return status.toUInt32
  | .crash c =>
    IO.eprintln c.message.escaped
    return 1
  | .unfinished => return 1

def deliver (outcome : Outcome) : IO UInt32 := do
  for (path, content) in outcome.writes do
    IO.FS.writeFile path.text content
  IO.print outcome.out.escaped
  IO.eprint outcome.err.escaped
  exitStatus outcome.ending

def deliverTurn (trace : Option IO.FS.Handle) (turn : Prompt.Turn) : IO Unit := do
  IO.print turn.out.escaped
  IO.eprint turn.err.escaped
  if let some handle := trace then
    handle.putStr turn.trace.escaped
    handle.flush

partial def converse (trace : Option IO.FS.Handle) (d : Prompt.Dialogue) : IO UInt32 := do
  let output ← IO.getStdout
  output.putStr d.prompt
  output.flush
  let line ← (← IO.getStdin).getLine
  if line.isEmpty then
    deliverTurn trace d.farewell
    return 0
  let content := if line.toList.getLast? = some '\n' then line.toList.dropLast else line.toList
  match d.feed loopLimit (String.ofList content) with
  | .quit => return 0
  | .wait next => converse trace next
  | .ran turn next =>
    deliverTurn trace turn
    converse trace next
  | .stopped turn _ s =>
    deliverTurn trace turn
    exitStatus (.ofStop s)

/-- Starts a dialogue; its trace is written as it goes. -/
def startDialogue (files : Files) (options : Options) : IO UInt32 := do
  match startSession files (options.settings thisHost) with
  | .error c => exitStatus (.crash c)
  | .ok session =>
    let trace ←
      if session.tracing then some <$> IO.FS.Handle.mk tracePath.text .write else pure none
    converse trace (.start session)

def runArguments (args : List String) : IO UInt32 := do
  match Options.read args with
  | .error .help =>
    IO.println usage
    return Refusal.help.status.toUInt32
  | .error .mistake =>
    IO.eprintln usage
    return Refusal.mistake.status.toUInt32
  | .ok options =>
    let files ← findFiles options.command.paths
    match options.command with
    | .dialogue => startDialogue files options
    | _ => deliver (perform files thisHost options loopLimit "")

end TreeWalk

def main (args : List String) : IO UInt32 := TreeWalk.runArguments args
