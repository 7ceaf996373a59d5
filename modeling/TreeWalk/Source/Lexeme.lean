import TreeWalk.Text.Lines
import TreeWalk.Tree.Token

/-!
Lexemes: the smallest parts of a source text. Which ones are tried depends on what may stand at a
place. Where a name may stand, a whole word is taken and counts as a keyword only if that keyword
may stand there too; where no name may stand, a keyword is taken wherever its letters begin the
rest, so that `1orx` is read as `1 or x`. Of the other spellings the longer ones are tried first.
-/

set_option autoImplicit false

namespace TreeWalk.Source

inductive Keyword where
  | declare
  | print
  | branch
  | otherwise
  | loop
  | yes
  | no
  | nothing
  deriving DecidableEq, Repr

def Keyword.spelling : Keyword → String
  | .declare => "var"
  | .print => "print"
  | .branch => "if"
  | .otherwise => "else"
  | .loop => "while"
  | .yes => "true"
  | .no => "false"
  | .nothing => "null"

inductive Mark where
  | assign
  | semicolon
  | openParen
  | closeParen
  | openBrace
  | closeBrace
  deriving DecidableEq, Repr

def Mark.spelling : Mark → String
  | .assign => "="
  | .semicolon => ";"
  | .openParen => "("
  | .closeParen => ")"
  | .openBrace => "\x7b"
  | .closeBrace => "\x7d"

inductive Terminal where
  | keyword (k : Keyword)
  | operator (k : Kind)
  | mark (m : Mark)
  | number
  | string
  | name
  deriving DecidableEq, Repr

/-- The words that can be more than names. -/
def words : List (List Char × Terminal) :=
  [Keyword.declare, .print, .branch, .otherwise, .loop, .yes, .no, .nothing].map
      (fun k => (k.spelling.toList, .keyword k)) ++
    [Kind.and, .or].map (fun k => (k.symbol.toList, .operator k))

/-- The spellings that are no words, the longer ones first. -/
def signs : List (List Char × Terminal) :=
  [Kind.equal, .notEqual, .greaterEqual, .lessEqual, .add, .subtract, .multiply, .divide, .not,
      .greater, .less].map (fun k => (k.symbol.toList, .operator k)) ++
    [Mark.assign, .semicolon, .openParen, .closeParen, .openBrace, .closeBrace].map
      (fun m => (m.spelling.toList, .mark m))

structure Lexeme where
  terminal : Terminal
  text : List Char
  deriving DecidableEq, Repr

def isNameStart (c : Char) : Bool := c.isAlpha || c = '_'
def isNameChar (c : Char) : Bool := c.isAlphanum || c = '_'

/-- The first of these spellings that may stand here and begins the text. -/
def spelled? (accepts : Terminal → Bool) (table : List (List Char × Terminal))
    (cs : List Char) : Option Lexeme :=
  (table.find? fun entry => accepts entry.2 && entry.1.isPrefixOf cs).map
    fun entry => ⟨entry.2, entry.1⟩

/-- What a whole word is where names may stand. -/
def wordTerminal (accepts : Terminal → Bool) (word : List Char) : Terminal :=
  match words.find? fun entry => entry.1 = word with
  | some entry => if accepts entry.2 then entry.2 else .name
  | none => .name

/-- The digits at the head of a text, with a point and a fraction if digits follow the point. -/
def takeNumber (cs : List Char) : List Char :=
  let whole := cs.takeWhile Text.isDigit
  match cs.dropWhile Text.isDigit with
  | '.' :: rest =>
    let fraction := rest.takeWhile Text.isDigit
    if fraction.isEmpty then whole else whole ++ '.' :: fraction
  | _ => whole

/-- The string at the head of a text that starts with a quote, if it is closed. -/
def takeString? (cs : List Char) : Option (List Char) :=
  let inner := (cs.drop 1).takeWhile (· ≠ '"')
  if (cs.drop 1).length = inner.length then none else some ('"' :: inner ++ ['"'])

/-- The lexeme at the head of a text, of those that may stand there. -/
def lexeme? (accepts : Terminal → Bool) (cs : List Char) : Option Lexeme :=
  match cs with
  | [] => none
  | c :: _ =>
    if Text.isDigit c then
      if accepts .number then some ⟨.number, takeNumber cs⟩ else none
    else if c = '"' then
      if accepts .string then (takeString? cs).map (⟨.string, ·⟩) else none
    else if isNameStart c then
      if accepts .name then
        let word := cs.takeWhile isNameChar
        some ⟨wordTerminal accepts word, word⟩
      else spelled? accepts words cs
    else spelled? accepts signs cs

/-- The lexeme at the head of a text, whatever may stand there. -/
def anyLexeme? (cs : List Char) : Option Lexeme := lexeme? (fun _ => true) cs

def isSpace (c : Char) : Bool := c = ' ' || c = '\t' || c = '\x0c' || c = '\r' || c = '\n'

/-- Skips blanks and comments and counts the lines they end; a comment goes on to the end of its
line. -/
def skip (comment : Bool) (line : Nat) : List Char → Nat × List Char
  | [] => (line, [])
  | c :: cs =>
    if c = '\n' then skip false (line + 1) cs
    else if comment then skip true line cs
    else if isSpace c then skip false line cs
    else if c = '/' ∧ cs.head? = some '/' then skip true line cs
    else (line, c :: cs)

theorem length_skip_le (comment : Bool) (line : Nat) (cs : List Char) :
    (skip comment line cs).2.length ≤ cs.length := by
  fun_induction skip comment line cs <;> grind

theorem spelled?_text_ne_nil {accepts : Terminal → Bool} {table : List (List Char × Terminal)}
    {cs : List Char} {lexeme : Lexeme} (spellings : ∀ entry ∈ table, entry.1 ≠ [])
    (h : spelled? accepts table cs = some lexeme) : lexeme.text ≠ [] := by
  simp only [spelled?, Option.map_eq_some_iff] at h
  obtain ⟨entry, found, rfl⟩ := h
  exact spellings entry (List.mem_of_find?_eq_some found)

/-- A lexeme has at least one character. -/
theorem lexeme?_text_ne_nil {accepts : Terminal → Bool} {cs : List Char} {lexeme : Lexeme}
    (h : lexeme? accepts cs = some lexeme) : lexeme.text ≠ [] := by
  unfold lexeme? at h
  split at h
  · cases h
  · rename_i c rest
    split at h
    · rename_i digit
      split at h
      · simp only [Option.some.injEq] at h
        subst h
        simp only [takeNumber, digit, List.takeWhile_cons_of_pos]
        split
        · split <;> simp
        · simp
      · cases h
    · split at h
      · split at h
        · simp only [takeString?, Option.map_eq_some_iff] at h
          obtain ⟨text, closed, rfl⟩ := h
          split at closed <;> simp_all
          simp [← closed]
        · cases h
      · split at h
        · rename_i start
          split at h
          · simp only [Option.some.injEq] at h
            subst h
            have inWord : isNameChar c = true := by
              simp only [isNameStart, Bool.or_eq_true, isNameChar, Char.isAlphanum] at start ⊢
              rcases start with alpha | underscore
              · simp [alpha]
              · simp [underscore]
            simp [List.takeWhile_cons_of_pos, inWord]
          · exact spelled?_text_ne_nil (by decide) h
        · exact spelled?_text_ne_nil (by decide) h

end TreeWalk.Source
