import TreeWalk.Text.Basic

/-!
Quoted text, as messages show it: between single quotes, or double ones where the text holds a
single quote and no double one; the quote, the backslash and what is not printable are escaped.
-/

set_option autoImplicit false

namespace TreeWalk.Text

def singleQuote : Char := '\x27'
def doubleQuote : Char := '\x22'

/-- The mark that a text is written between. -/
def quoteMark (t : Text) : Char :=
  if t.contains (.char singleQuote) && !t.contains (.char doubleQuote) then doubleQuote
  else singleQuote

def quoteChar (mark c : Char) : List Char :=
  if c = mark ∨ c = '\\' then ['\\', c]
  else if c = '\t' then ['\\', 't']
  else if c = '\n' then ['\\', 'n']
  else if c = '\r' then ['\\', 'r']
  else if isPrintable c then [c]
  else if c.toNat < 0x100 then '\\' :: 'x' :: hex 2 c.toNat
  else if c.toNat < 0x10000 then '\\' :: 'u' :: hex 4 c.toNat
  else '\\' :: 'U' :: hex 8 c.toNat

def quotePoint (mark : Char) : CodePoint → List Char
  | .char c => quoteChar mark c
  | .half n => CodePoint.escape n

def quote (t : Text) : String :=
  let mark := quoteMark t
  String.ofList (mark :: t.flatMap (quotePoint mark) ++ [mark])

end TreeWalk.Text
