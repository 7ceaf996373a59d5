import TreeWalk.Text.Digit

/-!
Options of the command line. A long option may be cut short as long as it is the only one with
that beginning, and may have its value after an equals sign; options of one letter may be written
together. After two dashes alone all arguments are operands. Arguments are taken from the left; a
request for help or a mistake ends it.
-/

set_option autoImplicit false

namespace TreeWalk.CommandLine

inductive Switch where
  | help
  | verbose
  | strict
  | emit
  | tree
  deriving DecidableEq, Repr

namespace Switch

def long : List (String × Switch) :=
  [("--help", .help), ("--strict", .strict), ("--emit-ast", .emit), ("--ast", .tree)]

def short? : Char → Option Switch
  | 'h' => some .help
  | 'v' => some .verbose
  | _ => none

def hasValue : Switch → Bool
  | .emit | .tree => true
  | _ => false

end Switch

/-- What an argument is taken for. Options of one letter come with the letters after them. -/
inductive Argument where
  | operand (s : String)
  | separator
  | long (switch : Switch) (value : Option String)
  | short (switch : Switch) (equals : Bool) (letters : List Char)
  | unknown
  | ambiguous
  deriving DecidableEq, Repr

/-- Splits a text at its first equals sign. -/
def splitEquals (cs : List Char) : List Char × Option (List Char) :=
  let before := cs.takeWhile (· ≠ '=')
  match cs.dropWhile (· ≠ '=') with
  | _ :: after => (before, some after)
  | [] => (before, none)

/-- A negative number is an operand. -/
def isNegativeNumber (cs : List Char) : Bool :=
  let cs := if cs.getLast? = some '\n' then cs.dropLast else cs
  match cs with
  | '-' :: cs =>
    let whole := cs.takeWhile Text.isDigit
    match cs.dropWhile Text.isDigit with
    | [] => !whole.isEmpty
    | '.' :: fraction => !fraction.isEmpty && fraction.all Text.isDigit
    | _ => false
  | _ => false

/-- What an argument that names no option is. -/
def otherArgument (cs : List Char) : Argument :=
  if isNegativeNumber cs || cs.contains ' ' then .operand (String.ofList cs) else .unknown

def longArgument (cs : List Char) : Argument :=
  let (name, value) := splitEquals cs
  let value := value.map String.ofList
  match Switch.long.find? fun entry => entry.1.toList = name with
  | some entry => .long entry.2 value
  | none =>
    match Switch.long.filter fun entry => name.isPrefixOf entry.1.toList with
    | [entry] => .long entry.2 value
    | [] => otherArgument cs
    | _ => .ambiguous

def classify (s : String) : Argument :=
  match s.toList with
  | '-' :: '-' :: rest => if rest.isEmpty then .separator else longArgument s.toList
  | '-' :: c :: rest =>
    match Switch.short? c with
    | none => otherArgument s.toList
    | some switch =>
      match rest with
      | '=' :: value => .short switch true value
      | _ => .short switch false rest
  | _ => .operand s

def classifyAll : List String → List Argument
  | [] => []
  | s :: rest =>
    match classify s with
    | .separator => .separator :: rest.map .operand
    | argument => argument :: classifyAll rest

structure Options where
  verbosity : Nat
  strict : Bool
  emit : Option String
  tree : Option String
  program : Option String
  deriving DecidableEq, Repr

/-- Why nothing is run: the status is that of a mistake or of a request for help. -/
inductive Refusal where
  | mistake
  | help
  deriving DecidableEq, Repr

def Refusal.status : Refusal → Nat
  | .mistake => 2
  | .help => 0

/-- The options so far, and whether an argument was left over. -/
structure Taken where
  options : Options
  leftover : Bool
  deriving DecidableEq, Repr

namespace Taken

def start : Taken := ⟨⟨0, false, none, none, none⟩, false⟩

def flag (t : Taken) : Switch → Except Refusal Taken
  | .help => .error .help
  | .verbose => .ok { t with options.verbosity := t.options.verbosity + 1 }
  | .strict => .ok { t with options.strict := true }
  | .emit | .tree => .error .mistake

/-- Takes an option with a value; the two options that have one exclude each other. -/
def setting (t : Taken) (switch : Switch) (value : String) : Except Refusal Taken :=
  match switch with
  | .emit =>
    if t.options.tree.isSome then .error .mistake
    else .ok { t with options.emit := some value }
  | .tree =>
    if t.options.emit.isSome then .error .mistake
    else .ok { t with options.tree := some value }
  | _ => .error .mistake

def flags (t : Taken) : List Switch → Except Refusal Taken
  | [] => .ok t
  | switch :: rest =>
    match t.flag switch with
    | .ok t => t.flags rest
    | .error refusal => .error refusal

end Taken

/-- The options written together after one dash, and whether a letter among them is none. -/
def letterSwitches (equals : Bool) : List Char → Except Refusal (List Switch × Bool)
  | [] => if equals then .error .mistake else .ok ([], false)
  | c :: rest =>
    if equals || c = '-' then .error .mistake
    else
      match Switch.short? c with
      | none => .ok ([], true)
      | some switch =>
        match rest with
        | '=' :: _ => .error .mistake
        | _ =>
          match letterSwitches false rest with
          | .error refusal => .error refusal
          | .ok (switches, leftover) => .ok (switch :: switches, leftover)

/-- Takes the operands after two dashes alone: one program, if there is none yet. -/
def Taken.operands (t : Taken) : List Argument → Taken
  | [] => t
  | [.operand s] =>
    if t.options.program.isSome then { t with leftover := true }
    else { t with options.program := some s }
  | _ => { t with leftover := true }

/-- Takes all arguments; two dashes alone come after the last option. -/
def takeAll (t : Taken) : List Argument → Except Refusal Taken
  | [] => .ok t
  | .long switch (some value) :: rest =>
    match t.setting switch value with
    | .ok t => takeAll t rest
    | .error refusal => .error refusal
  | .long switch none :: rest =>
    if switch.hasValue then
      match rest with
      | .operand value :: rest =>
        match t.setting switch value with
        | .ok t => takeAll t rest
        | .error refusal => .error refusal
      | _ => .error .mistake
    else
      match t.flag switch with
      | .ok t => takeAll t rest
      | .error refusal => .error refusal
  | .short switch equals letters :: rest =>
    match letterSwitches equals letters with
    | .error refusal => .error refusal
    | .ok (switches, leftover) =>
      match t.flags (switch :: switches) with
      | .ok t => takeAll { t with leftover := t.leftover || leftover } rest
      | .error refusal => .error refusal
  | .operand s :: rest =>
    if t.options.program.isSome then takeAll { t with leftover := true } rest
    else
      match rest with
      | .separator :: rest => .ok ({ t with options.program := some s }.operands rest)
      | _ => takeAll { t with options.program := some s } rest
  | .separator :: rest =>
    if t.options.program.isSome then .ok { t with leftover := true } else .ok (t.operands rest)
  | .unknown :: rest => takeAll { t with leftover := true } rest
  | .ambiguous :: _ => .error .mistake

def Options.read (args : List String) : Except Refusal Options :=
  let arguments := classifyAll args
  if arguments.contains .ambiguous then .error .mistake
  else
    match takeAll .start arguments with
    | .error refusal => .error refusal
    | .ok t => if t.leftover then .error .mistake else .ok t.options

end TreeWalk.CommandLine
