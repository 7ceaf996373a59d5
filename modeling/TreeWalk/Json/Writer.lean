import TreeWalk.Json.Basic

/-!
Writing JSON documents: every item on a line of its own, two blanks deeper than what holds it.
Characters outside of ASCII stand for themselves, and half of a pair is an escape; no tree of a
source has one.
-/

set_option autoImplicit false

namespace TreeWalk.Json

def escapeChar (c : Char) : List Char :=
  if c = '"' then ['\\', '"']
  else if c = '\\' then ['\\', '\\']
  else if c = '\n' then ['\\', 'n']
  else if c = '\r' then ['\\', 'r']
  else if c = '\t' then ['\\', 't']
  else if c = '\x0c' then ['\\', 'f']
  else if c = '\x08' then ['\\', 'b']
  else if c.toNat < 0x20 then '\\' :: 'u' :: Text.hex 4 c.toNat
  else [c]

def escapePoint : CodePoint → List Char
  | .char c => escapeChar c
  | .half n => CodePoint.escape n

def writeString (s : Text) : List Char :=
  '"' :: s.flatMap escapePoint ++ ['"']

def writeNumber : Number → List Char
  | .whole n => (toString n).toList
  | .double x =>
    match Number.parts x with
    | .nan => "NaN".toList
    | .infinite negative => if negative then "-Infinity".toList else "Infinity".toList
    | .finite .. => (Number.text x).toList

/-- A line feed and the blanks that start a line `depth` levels deep. -/
def newline (depth : Nat) : List Char := '\n' :: List.replicate (2 * depth) ' '

mutual

/-- Writes a value whose first line is `depth` levels deep. -/
def write (depth : Nat) : Json → List Char
  | .null => "null".toList
  | .bool b => if b then "true".toList else "false".toList
  | .number n => writeNumber n
  | .text s => writeString s
  | .list [] => ['[', ']']
  | .list (item :: items) =>
    '[' :: newline (depth + 1) ++ write (depth + 1) item ++ writeItems (depth + 1) items ++
      newline depth ++ [']']
  | .object [] => ['\x7b', '\x7d']
  | .object ((key, value) :: fields) =>
    '\x7b' :: newline (depth + 1) ++ writeString key ++ [':', ' '] ++ write (depth + 1) value ++
      writeFields (depth + 1) fields ++ newline depth ++ ['\x7d']

/-- The items of a list after its first one. -/
def writeItems (depth : Nat) : List Json → List Char
  | [] => []
  | item :: items => ',' :: newline depth ++ write depth item ++ writeItems depth items

/-- The fields of an object after its first one. -/
def writeFields (depth : Nat) : List (Text × Json) → List Char
  | [] => []
  | (key, value) :: fields =>
    ',' :: newline depth ++ writeString key ++ [':', ' '] ++ write depth value ++
      writeFields depth fields

end

def document (value : Json) : String := String.ofList (write 0 value)

end TreeWalk.Json
