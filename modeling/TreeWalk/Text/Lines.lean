/-!
Lines of a text. Only the line feed ends a line; the other ways to end one are turned into it when
a file is read.
-/

set_option autoImplicit false

namespace TreeWalk.Text

def newlines (cs : List Char) : Nat := cs.count '\n'

/-- Every carriage return, with the line feed after it if there is one, becomes a line feed. -/
def unifyNewlines : List Char → List Char
  | [] => []
  | '\r' :: '\n' :: cs => '\n' :: unifyNewlines cs
  | '\r' :: cs => '\n' :: unifyNewlines cs
  | c :: cs => c :: unifyNewlines cs

/-- What stands between the line feeds of a text: one part more than there are line feeds. -/
def splitLines : List Char → List (List Char)
  | [] => [[]]
  | c :: cs =>
    if c = '\n' then [] :: splitLines cs
    else
      match splitLines cs with
      | [] => [[c]]
      | line :: rest => (c :: line) :: rest

/-- The lines that a reader of a stream sees: nothing follows a last line feed. -/
def streamLines (cs : List Char) : List (List Char) :=
  let parts := splitLines cs
  if parts.getLast? = some [] then parts.dropLast else parts

end TreeWalk.Text
