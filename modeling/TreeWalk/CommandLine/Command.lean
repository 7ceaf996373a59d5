import TreeWalk.CommandLine.Options
import TreeWalk.CommandLine.Path
import TreeWalk.Json.Writer
import TreeWalk.Prompt.Dialogue
import TreeWalk.Tree.Decode
import TreeWalk.Tree.Encode

/-!
Commands: run a source file, write the tree of a source file as a document, run such a document, or
hold a dialogue. What a command does is computed from the files as it finds them, the host and the
lines of its input: what it prints, the files it writes, and how it ends.

Of the host's stack only what documents can do to it is told: they nest as deep as whoever writes
them likes. A source is taken to be one whose tree the stack holds.
-/

set_option autoImplicit false

namespace TreeWalk.CommandLine

open Run

inductive Command where
  | emit (path : String)
  | tree (path : String)
  | source (path : String)
  | dialogue
  deriving DecidableEq, Repr

/-- A value that is given and is not empty. -/
def present (value : Option String) : Option String := value.filter (!·.isEmpty)

/-- Writing a tree comes before running one, and that before running a source file. -/
def Options.command (o : Options) : Command :=
  match present o.emit, present o.tree, present o.program with
  | some path, _, _ => .emit path
  | none, some path, _ => .tree path
  | none, none, some path => .source path
  | none, none, none => .dialogue

/-- What commands run on. -/
structure Host where
  /-- The stream that is printed to. -/
  output : Stream
  /-- How many lists and objects of a document the stack holds open at once. -/
  deepest : Option Nat
  /-- The stack holds the walk through a value that was read: decoding it, and running its tree. -/
  walks : Settings → Json → Bool

/-- The trace is a file in UTF-8. -/
def Host.streams (host : Host) : Streams := ⟨host.output, .utf8⟩

def Options.settings (o : Options) (host : Host) : Settings :=
  ⟨o.strict, o.verbosity, host.streams⟩

def tracePath : Path := .ofString "debug.txt"

def treePath (source : Path) : Path := source.extend ".ast.json"

/-- A fault that no report covers. -/
inductive Crash where
  | fault (f : Fault)
  | decoding (e : DecodeError)
  | directory (p : Path)
  /-- The stack does not hold the lists and objects that are open. -/
  | nesting (opened : String)
  /-- The stack does not hold the walk through what was read. -/
  | walking

def Crash.message : Crash → Text
  | .fault f => f.message
  | .decoding e => e.message
  | .directory p => directoryMessage p
  | .nesting opened => (Json.Fault.tooDeep opened).message []
  | .walking => "maximum recursion depth exceeded"

inductive Ending where
  | exit (status : Nat)
  | crash (c : Crash)
  | unfinished

def Ending.ofStop : Stop → Ending
  | .fault f => .crash (.fault f)
  | .unfinished => .unfinished

structure Outcome where
  out : Text
  err : Text
  writes : List (Path × String)
  ending : Ending

namespace Status

def success : Nat := 0
def fileError : Nat := 66

end Status

namespace Outcome

def crash (c : Crash) : Outcome := ⟨[], [], [], .crash c⟩

/-- Ends because of a file, with one line that says why. -/
def fileError (message : Text) : Outcome :=
  ⟨[], message ++ "\n", [], .exit Status.fileError⟩

def report (r : Report) : Outcome := ⟨[], r.summary ++ "\n", [], .exit r.status⟩

end Outcome

def readFile (files : Files) (p : Path) : Except FileError String :=
  match files p with
  | none => .error (.missing p)
  | some .directory => .error (.directory p)
  | some (.file bytes) =>
    match Text.decodeUtf8 bytes with
    | .error fault => .error (.encoding p fault)
    | .ok cs => .ok (String.ofList (Text.unifyNewlines cs))

def writable (files : Files) (p : Path) : Bool := files p ≠ some .directory

/-- Starts a session; one that traces needs the file of the trace. -/
def startSession (files : Files) (settings : Settings) : Except Crash Session :=
  let session := Session.start settings
  if session.tracing && !writable files tracePath then .error (.directory tracePath)
  else .ok session

/-- The trace as a file, if there is one. Its stream takes no halves: there are none to escape. -/
def traceFile (session : Session) (text : Text) : List (Path × String) :=
  if session.tracing then [(tracePath, text.escaped)] else []

def runProgramFile (files : Files) (settings : Settings) (limit : Nat) (program : Program) :
    Outcome :=
  match startSession files settings with
  | .error c => .crash c
  | .ok session =>
    let (result, events, session) := session.act (runProgram settings limit program)
    let writes := traceFile session (session.traceText events)
    let out := session.output events
    match result with
    | .ok () => ⟨out, [], writes, .exit Status.success⟩
    | .error (.fault (.report r)) => ⟨out, r.summary ++ "\n", writes, .exit r.status⟩
    | .error s => ⟨out, [], writes, .ofStop s⟩

def runSource (files : Files) (settings : Settings) (limit : Nat) (path : String) : Outcome :=
  match readFile files (.ofString path) with
  | .error e => .fileError e.message
  | .ok source =>
    match Source.parse source with
    | .error e => .report (.ofSyntax e)
    | .ok program => runProgramFile files settings limit program

/-- Writes the tree of a source file and tells where. -/
def emitTree (files : Files) (path : String) : Outcome :=
  let p := Path.ofString path
  match readFile files p with
  | .error e => .fileError e.message
  | .ok source =>
    match Source.parse source with
    | .error e => .report (.ofSyntax e)
    | .ok program =>
      if writable files (treePath p) then
        ⟨(treePath p).text ++ "\n", [], [(treePath p, Json.document program.encode)],
          .exit Status.success⟩
      else .crash (.directory (treePath p))

/-- Runs the tree of a document. All faults of a document are faults of the file, but for a line
that is infinite and for what the stack does not hold. Where the stack gives out in the walk is left
open: nothing is printed or traced before it. -/
def runTree (files : Files) (host : Host) (settings : Settings) (limit : Nat) (path : String) :
    Outcome :=
  match readFile files (.ofString path) with
  | .error e => .fileError e.message
  | .ok source =>
    match Json.readWithin host.deepest source.toList with
    | .error (.tooDeep opened) => .crash (.nesting opened)
    | .error fault =>
      .fileError s!"Error: invalid AST file {path}: {fault.message source.toList}"
    | .ok value =>
      if host.walks settings value then
        match decode value with
        | .error .lineInfinite => .crash (.decoding .lineInfinite)
        | .error e => .fileError (s!"Error: invalid AST file {path}: " ++ e.message)
        | .ok (.program program) => runProgramFile files settings limit program
        | .ok _ => .fileError s!"Error: {path} does not contain a Program"
      else .crash .walking

/-- Holds a dialogue; the prompts are printed. -/
def runDialogue (files : Files) (settings : Settings) (limit : Nat) (input : String) : Outcome :=
  match startSession files settings with
  | .error c => .crash c
  | .ok session =>
    let lines := (Text.streamLines input.toList).map fun cs => Prompt.Input.line (String.ofList cs)
    let (turns, session, ending) := (Prompt.Dialogue.start session).hold limit lines
    let writes := traceFile session (turns.flatMap (·.trace))
    let out := turns.flatMap fun turn => turn.prompt ++ turn.out
    let err := turns.flatMap (·.err)
    match ending with
    | .left => ⟨out, err, writes, .exit Status.success⟩
    | .stopped s => ⟨out, err, writes, .ofStop s⟩

def perform (files : Files) (host : Host) (options : Options) (limit : Nat) (input : String) :
    Outcome :=
  match options.command with
  | .emit path => emitTree files path
  | .tree path => runTree files host (options.settings host) limit path
  | .source path => runSource files (options.settings host) limit path
  | .dialogue => runDialogue files (options.settings host) limit input

end TreeWalk.CommandLine
