import TreeWalk.Text.Quoted
import TreeWalk.Text.Utf8

/-!
Paths of files and what stands there. A path is kept without empty parts and without parts that
stand for the directory itself.
-/

set_option autoImplicit false

namespace TreeWalk.CommandLine

structure Path where
  root : String
  parts : List String
  deriving DecidableEq, Repr

namespace Path

def splitSlashes : List Char → List (List Char)
  | [] => [[]]
  | c :: cs =>
    if c = '/' then [] :: splitSlashes cs
    else
      match splitSlashes cs with
      | [] => [[c]]
      | part :: rest => (c :: part) :: rest

/-- Two slashes at the start are kept, one or more than two are one. -/
def rootOf (cs : List Char) : String :=
  match (cs.takeWhile (· = '/')).length with
  | 0 => ""
  | 2 => "//"
  | _ => "/"

def ofString (s : String) : Path where
  root := rootOf s.toList
  parts := ((splitSlashes s.toList).filter fun part => part ≠ [] ∧ part ≠ ['.']).map String.ofList

def text (p : Path) : String :=
  if p.root.isEmpty && p.parts.isEmpty then "." else p.root ++ String.intercalate "/" p.parts

/-- The path of a file beside this one, whose name goes on with `ending`. -/
def extend (p : Path) (ending : String) : Path :=
  match p.parts.getLast? with
  | some name => { p with parts := p.parts.dropLast ++ [name ++ ending] }
  | none => p

end Path

inductive Entry where
  | file (bytes : List Nat)
  | directory
  deriving DecidableEq, Repr

/-- The files as a command finds them. -/
abbrev Files := Path → Option Entry

/-- Why a file cannot be read or written. -/
inductive FileError where
  | missing (p : Path)
  | directory (p : Path)
  | encoding (p : Path) (fault : Text.Utf8Fault)
  deriving DecidableEq, Repr

def directoryMessage (p : Path) : String :=
  s!"[Errno 21] Is a directory: {Text.quote p.text}"

def encodingMessage (fault : Text.Utf8Fault) : String :=
  let last := fault.position + fault.length - 1
  let place :=
    if fault.length = 1 then
      s!"byte 0x{String.ofList (Text.hex 2 fault.first)} in position {fault.position}"
    else s!"bytes in position {fault.position}-{last}"
  s!"'utf-8' codec can't decode {place}: {fault.reason.message}"

def FileError.message : FileError → String
  | .missing p => s!"Error: file {p.text} not found"
  | .directory p => s!"Error: cannot read {p.text}: {directoryMessage p}"
  | .encoding p fault => s!"Error: cannot read {p.text}: {encodingMessage fault}"

end TreeWalk.CommandLine
