import TreeWalk.Report

/-!
What a run lets others see: the lines it prints and the messages of its trace. A message has a
level and is only traced where the verbosity reaches it.
-/

set_option autoImplicit false

namespace TreeWalk.Run

inductive Message where
  | started
  | finished
  | failed (r : Report)
  | declared (name value : Text)
  | assigned (name value : Text)
  | tested (value : Text) (taken : Bool)
  | looped (rounds : Nat)
  | entered (depth : Nat)
  | left (depth : Nat)
  | valued (type : NodeType) (value : Text)
  deriving DecidableEq

namespace Message

def level : Message → Nat
  | .started | .finished | .failed _ => 1
  | .declared .. | .assigned .. => 2
  | .tested .. | .looped _ | .entered _ | .left _ => 3
  | .valued .. => 4

def text : Message → Text
  | .started => "run: start"
  | .finished => "run: finished"
  | .failed r => s!"run: error {r.describe}"
  | .declared name value => "declare " ++ name ++ " = " ++ value
  | .assigned name value => "assign " ++ name ++ " = " ++ value
  | .tested value taken => "if condition " ++ value ++ " -> " ++ (Json.bool taken).quoted
  | .looped rounds => s!"while finished after {rounds} iterations"
  | .entered depth => s!"enter scope depth {depth}"
  | .left depth => s!"leave scope depth {depth}"
  | .valued type value => type.name ++ " -> " ++ value

end Message

inductive Event where
  | printed (text : Text)
  | traced (m : Message)
  deriving DecidableEq

namespace Event

def printed? : Event → Option Text
  | .printed text => some text
  | .traced _ => none

def message? : Event → Option Message
  | .printed _ => none
  | .traced m => some m

def line : Event → Text
  | .printed text => text
  | .traced m => m.text

end Event

/-- The text of some lines, each one ended. -/
def textOf (lines : List Text) : Text := lines.flatMap (· ++ "\n")

end TreeWalk.Run
