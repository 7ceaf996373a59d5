import TreeWalk.Source.Parser

/-!
What goes wrong. A report is an error of the program that is run: it has a name, a message and,
where it is known, a line. Other faults come from trees that no source text has and from values
that no double stands for.
-/

set_option autoImplicit false

namespace TreeWalk

structure Report where
  name : String
  message : Text
  line : Option Int
  deriving DecidableEq, Repr

namespace Report

def syntaxName : String := "SyntaxError"

def ofSyntax (e : Source.SyntaxError) : Report := ⟨syntaxName, e.message, some (e.line : Int)⟩

def typeError (line : Int) (detail : Text) : Report :=
  ⟨"TypeError", s!"Invalid type on line {line} : " ++ detail, some line⟩

def undefinedVariable (name : Text) (line : Option Int) : Report :=
  ⟨"UndefinedVariable", "Undefined variable: " ++ name, line⟩

/-- A report in full, as the trace shows it. -/
def describe (r : Report) : String :=
  let line :=
    match r.line with
    | none => "None"
    | some n => toString n
  s!"Error(name={Text.quote r.name}, message={Text.quote r.message}, line={line})"

/-- A report as the user sees it. -/
def summary (r : Report) : Text := r.name ++ ": " ++ r.message

/-- The exit status of a run that ends with this report. -/
def status (r : Report) : Nat := if r.name = syntaxName then 65 else 70

end Report

inductive Fault where
  | report (r : Report)
  | numberTooLarge
  | notANumeral (s : Text)
  | notConvertible (kind : String)
  | unhashable (kind : String)
  | notExecutable (type : String)
  | notEvaluable (type : String)
  | notIterable (type : String)
  /-- A text to be written that UTF-8 cannot encode. -/
  | unencodable (t : Text)
  deriving DecidableEq, Repr

/-- Why UTF-8 cannot encode a text: the first half in it, or the first row of halves. -/
def Text.encodingProblem (t : Text) : String :=
  let start := (t.takeWhile CodePoint.isChar).length
  let row := (t.drop start).takeWhile fun p => !p.isChar
  let place :=
    if row.length = 1 then s!"character {Text.quote row} in position {start}"
    else s!"characters in position {start}-{start + row.length - 1}"
  s!"'utf-8' codec can't encode {place}: surrogates not allowed"

def Fault.message : Fault → Text
  | .report r => r.message
  | .numberTooLarge => "int too large to convert to float"
  | .notANumeral s => s!"could not convert string to float: {Text.quote s}"
  | .notConvertible kind =>
    s!"float() argument must be a string or a real number, not '{kind}'"
  | .unhashable kind => s!"unhashable type: '{kind}'"
  | .notExecutable type => s!"execute: unexpected node type {type}"
  | .notEvaluable type => s!"evaluate: unexpected node type {type}"
  | .notIterable type => s!"'{type}' object is not iterable"
  | .unencodable t => t.encodingProblem

end TreeWalk
