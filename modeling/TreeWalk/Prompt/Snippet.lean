import TreeWalk.Source.Parser
import TreeWalk.Text.Blank

/-!
Snippets: what is typed at the prompt until its braces balance. A snippet is a program, or an
expression, whose value is then printed.
-/

set_option autoImplicit false

namespace TreeWalk.Prompt

/-- Opening less closing braces of a line. Those in strings and in a comment do not count, and no
string goes on to the next line. -/
def braceBalanceFrom (inString : Bool) : List Char → Int
  | [] => 0
  | c :: cs =>
    if !inString && c = '/' && cs.head? = some '/' then 0
    else if c = '"' then braceBalanceFrom (!inString) cs
    else if inString then braceBalanceFrom true cs
    else if c = '\x7b' then braceBalanceFrom false cs + 1
    else if c = '\x7d' then braceBalanceFrom false cs - 1
    else braceBalanceFrom false cs

def braceBalance (line : String) : Int := braceBalanceFrom false line.toList

/-- Reads a snippet; if it is neither a program nor an expression the error is that of a program. -/
def parseSnippet (source : String) : Except Source.SyntaxError Program :=
  match Source.parse source with
  | .ok program => .ok program
  | .error e =>
    match Source.parse ("print " ++ Text.strip source ++ ";") with
    | .ok program => .ok program
    | .error _ => .error e

end TreeWalk.Prompt
