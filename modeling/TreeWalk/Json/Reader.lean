import TreeWalk.Json.Basic

/-!
Reading JSON documents. The reader keeps a stack of the lists and objects that are still open and
takes one item at a time: a bracket, a field name with its colon, a comma, or a scalar. A fault is
given by what was expected and by how much of the text remains where it was found. `NaN` and the
two infinities are read as doubles; an integer has no more than 4300 digits. How many lists and
objects may be open at once is up to the caller: a host whose stack grows with them has a bound.
-/

set_option autoImplicit false

namespace TreeWalk.Json

inductive Problem where
  | expectingValue
  | expectingName
  | expectingColon
  | expectingComma
  | extraData
  | unterminated
  | controlCharacter
  | badEscape
  | badUnicodeEscape
  | byteOrderMark
  deriving DecidableEq, Repr

def Problem.message : Problem → String
  | .expectingValue => "Expecting value"
  | .expectingName => "Expecting property name enclosed in double quotes"
  | .expectingColon => "Expecting ':' delimiter"
  | .expectingComma => "Expecting ',' delimiter"
  | .extraData => "Extra data"
  | .unterminated => "Unterminated string starting at"
  | .controlCharacter => "Invalid control character at"
  | .badEscape => "Invalid \\escape"
  | .badUnicodeEscape => "Invalid \\uXXXX escape"
  | .byteOrderMark => "Unexpected UTF-8 BOM (decode using utf-8-sig)"

/-- Why a text is no document; `remaining` counts the characters from the fault to the end. -/
inductive Fault where
  | at (problem : Problem) (remaining : Nat)
  | tooManyDigits (count : Nat)
  /-- A list or an object inside of as many others as may be open. -/
  | tooDeep (opened : String)
  deriving DecidableEq, Repr

def digitLimit : Nat := 4300

/-- The wording of a fault in a text, with the line, the column and the character it stands at. -/
def Fault.message (doc : List Char) : Fault → String
  | .at problem remaining =>
    let before := doc.take (doc.length - remaining)
    let line := before.count '\n' + 1
    let column := (before.reverse.takeWhile (· ≠ '\n')).length + 1
    s!"{problem.message}: line {line} column {column} (char {before.length})"
  | .tooManyDigits count =>
    s!"Exceeds the limit ({digitLimit} digits) for integer string conversion: " ++
      s!"value has {count} digits; use sys.set_int_max_str_digits() to increase the limit"
  | .tooDeep opened =>
    s!"maximum recursion depth exceeded while decoding a JSON {opened} from a unicode string"

/-- What was read and the text after it. -/
abbrev Reading (α : Type) := Except Fault (α × List Char)

def isSpace (c : Char) : Bool := c = ' ' || c = '\t' || c = '\n' || c = '\r'

def skipSpace (cs : List Char) : List Char := cs.dropWhile isSpace

theorem length_dropWhile_le (p : Char → Bool) (cs : List Char) :
    (cs.dropWhile p).length ≤ cs.length :=
  (List.dropWhile_suffix p).length_le

def hexValue? (c : Char) : Option Nat :=
  if '0' ≤ c ∧ c ≤ '9' then some (c.toNat - 0x30)
  else if 'a' ≤ c ∧ c ≤ 'f' then some (c.toNat - 0x57)
  else if 'A' ≤ c ∧ c ≤ 'F' then some (c.toNat - 0x37)
  else none

/-- The number that the first four characters write. -/
def hexFour? : List Char → Option Nat
  | a :: b :: c :: d :: _ => do
    return ((← hexValue? a) * 16 + (← hexValue? b)) * 256 + (← hexValue? c) * 16 + (← hexValue? d)
  | _ => none

def isHighSurrogate (n : Nat) : Bool := 0xD800 ≤ n && n < 0xDC00
def isLowSurrogate (n : Nat) : Bool := 0xDC00 ≤ n && n < 0xE000

def pairChar (high low : Nat) : Char :=
  Char.ofNat (0x10000 + (high - 0xD800) * 0x400 + (low - 0xDC00))

/-- The character after a backslash that stands for another one. -/
def plainEscape? : Char → Option Char
  | '"' => some '"'
  | '\\' => some '\\'
  | '/' => some '/'
  | 'b' => some '\x08'
  | 'f' => some '\x0c'
  | 'n' => some '\n'
  | 'r' => some '\r'
  | 't' => some '\t'
  | _ => none

/-- The code point that `cs`, which follows a backslash and the letter u, writes, and how much of
`cs` it takes. Two halves of a pair are one character; a half that stands alone is itself. -/
def unicodeEscape (cs : List Char) : Except Fault (CodePoint × Nat) :=
  if cs.length < 5 then .error (.at .badUnicodeEscape (cs.length + 1))
  else
    match hexFour? cs with
    | none => .error (.at .badUnicodeEscape (cs.length + 1))
    | some high =>
      match cs.drop 4 with
      | '\\' :: 'u' :: rest =>
        if isHighSurrogate high ∧ 5 ≤ rest.length then
          match hexFour? rest with
          | none => .error (.at .badUnicodeEscape (rest.length + 1))
          | some low =>
            if isLowSurrogate low then .ok (.char (pairChar high low), 10)
            else .ok (.ofUnit high, 4)
        else .ok (.ofUnit high, 4)
      | _ => .ok (.ofUnit high, 4)

/-- The rest of a string whose opening quote has `start` characters from it to the end. -/
def readChars (start : Nat) (cs : List Char) : Reading Text :=
  match cs with
  | [] => .error (.at .unterminated start)
  | c :: rest =>
    if c = '"' then .ok ([], rest)
    else if c = '\\' then
      match rest with
      | [] => .error (.at .unterminated start)
      | e :: rest =>
        if e = 'u' then
          match unicodeEscape rest with
          | .error fault => .error fault
          | .ok (c, size) =>
            match readChars start (rest.drop size) with
            | .error fault => .error fault
            | .ok (tail, rest) => .ok (c :: tail, rest)
        else
          match plainEscape? e with
          | none => .error (.at .badEscape (rest.length + 2))
          | some c =>
            match readChars start rest with
            | .error fault => .error fault
            | .ok (tail, rest) => .ok (.char c :: tail, rest)
    else if c.toNat < 0x20 then .error (.at .controlCharacter (rest.length + 1))
    else
      match readChars start rest with
      | .error fault => .error fault
      | .ok (tail, rest) => .ok (.char c :: tail, rest)
termination_by cs.length
decreasing_by all_goals simp_all <;> omega

theorem readChars_length_lt {start : Nat} {cs rest : List Char} {out : Text}
    (h : readChars start cs = .ok (out, rest)) : rest.length < cs.length := by
  fun_induction readChars start cs generalizing out rest <;> grind

/-- The exponent at the head of a text, and how many characters it takes. -/
def readExponent (cs : List Char) : Option (Int × Nat) :=
  match cs with
  | [] => none
  | e :: rest =>
    if e = 'e' || e = 'E' then
      let (negative, unsigned) := Numeral.takeSign rest
      let digits := unsigned.takeWhile Char.isDigit
      let n : Int := Text.digitsValue digits
      if digits.isEmpty then none
      else some (if negative then -n else n, 1 + (rest.length - unsigned.length) + digits.length)
    else none

/-- The digits before the point: a zero stands alone. -/
def wholeDigits : List Char → List Char
  | '0' :: _ => ['0']
  | cs => cs.takeWhile Char.isDigit

/-- A number: a sign, digits, a fraction, an exponent. With neither of the last two it is an
integer. -/
def readNumber (cs : List Char) : Reading Json :=
  let negative := cs.head? = some '-'
  let unsigned := if negative then cs.drop 1 else cs
  let whole := wholeDigits unsigned
  let afterWhole := unsigned.drop whole.length
  let fraction :=
    match afterWhole with
    | '.' :: rest => rest.takeWhile Char.isDigit
    | _ => []
  let afterFraction :=
    if fraction.isEmpty then afterWhole else afterWhole.drop (fraction.length + 1)
  if whole.isEmpty then .error (.at .expectingValue cs.length)
  else
    match fraction, readExponent afterFraction with
    | [], none =>
      if digitLimit < whole.length then .error (.tooManyDigits whole.length)
      else
        let n : Int := Text.digitsValue whole
        .ok (.number (.whole (if negative then -n else n)), afterFraction)
    | _, exponent =>
      let (power, size) := exponent.getD (0, 0)
      let d := Decimal.ofDigits whole fraction
      let x := (Decimal.mk d.digits (d.exponent + power)).toFloat
      .ok (.number (.double (if negative then -x else x)), afterFraction.drop size)

def words : List (List Char × Json) :=
  [("null".toList, .null), ("true".toList, .bool true), ("false".toList, .bool false),
   ("NaN".toList, .number (.double Numeral.notANumber)),
   ("Infinity".toList, .number (.double Numeral.infinity)),
   ("-Infinity".toList, .number (.double (-Numeral.infinity)))]

def readScalar (cs : List Char) : Reading Json :=
  match cs with
  | '"' :: rest =>
    match readChars cs.length rest with
    | .error fault => .error fault
    | .ok (s, rest) => .ok (.text s, rest)
  | _ =>
    match words.find? fun word => word.1.isPrefixOf cs with
    | some word => .ok (word.2, cs.drop word.1.length)
    | none => readNumber cs

/-- A list or an object that is still open: what it holds so far, a list's items newest first. -/
inductive Frame where
  | list (done : List Json)
  | field (done : List (Text × Json)) (key : Text)

/-- What the reader waits for. -/
inductive Mode where
  | value
  | firstItem
  | firstName
  | name (done : List (Text × Json))
  | after (value : Json)

abbrev Step := Except Fault (Mode × List Frame × List Char)

/-- Whether one more list or object may be opened inside of those that are open. -/
def isOpenable (deepest : Option Nat) (stack : List Frame) : Bool :=
  deepest.all (stack.length < ·)

def readValue (deepest : Option Nat) (stack : List Frame) (cs : List Char) : Step :=
  match cs with
  | '\x7b' :: rest =>
    if isOpenable deepest stack then .ok (.firstName, stack, rest) else .error (.tooDeep "object")
  | '[' :: rest =>
    if isOpenable deepest stack then .ok (.firstItem, stack, rest) else .error (.tooDeep "array")
  | _ =>
    match readScalar cs with
    | .error fault => .error fault
    | .ok (value, rest) => .ok (.after value, stack, rest)

/-- A field name and the colon after it. -/
def readName (done : List (Text × Json)) (stack : List Frame) (cs : List Char) : Step :=
  match cs with
  | '"' :: rest =>
    match readChars cs.length rest with
    | .error fault => .error fault
    | .ok (key, rest) =>
      match skipSpace rest with
      | ':' :: rest => .ok (.value, .field done key :: stack, rest)
      | rest => .error (.at .expectingColon rest.length)
  | _ => .error (.at .expectingName cs.length)

/-- After a value: the next item of the innermost list or object, or its end. -/
def readNext (value : Json) (stack : List Frame) (cs : List Char) : Step :=
  match stack, cs with
  | .list done :: stack, ',' :: rest => .ok (.value, .list (value :: done) :: stack, rest)
  | .list done :: stack, ']' :: rest => .ok (.after (.list (value :: done).reverse), stack, rest)
  | .field done key :: stack, ',' :: rest => .ok (.name (insertField key value done), stack, rest)
  | .field done key :: stack, '\x7d' :: rest =>
    .ok (.after (.object (insertField key value done)), stack, rest)
  | _, _ => .error (.at .expectingComma cs.length)

/-- Takes one item from a text that starts with no space. -/
def step (deepest : Option Nat) (mode : Mode) (stack : List Frame) (cs : List Char) : Step :=
  match mode with
  | .value => readValue deepest stack cs
  | .firstItem =>
    match cs with
    | ']' :: rest => .ok (.after (.list []), stack, rest)
    | _ => readValue deepest (.list [] :: stack) cs
  | .firstName =>
    match cs with
    | '\x7d' :: rest => .ok (.after (.object []), stack, rest)
    | _ => readName [] stack cs
  | .name done => readName done stack cs
  | .after value => readNext value stack cs

theorem length_drop_wholeDigits_lt {cs : List Char} (h : (wholeDigits cs).isEmpty = false) :
    (cs.drop (wholeDigits cs).length).length < cs.length := by
  cases cs with
  | nil => simp [wholeDigits] at h
  | cons c rest =>
    have : 0 < (wholeDigits (c :: rest)).length := by
      cases hw : wholeDigits (c :: rest) <;> simp_all
    simp only [List.length_drop, List.length_cons]
    omega

theorem readNumber_length_lt {cs rest : List Char} {value : Json}
    (h : readNumber cs = .ok (value, rest)) : rest.length < cs.length := by
  unfold readNumber at h
  have drops := @length_drop_wholeDigits_lt (if cs.head? = some '-' then cs.drop 1 else cs)
  have unsigned : (if cs.head? = some '-' then cs.drop 1 else cs).length ≤ cs.length := by
    split <;> simp
  grind

theorem readScalar_length_lt {cs rest : List Char} {value : Json}
    (h : readScalar cs = .ok (value, rest)) : rest.length < cs.length := by
  unfold readScalar at h
  split at h
  · split at h
    · cases h
    · rename_i hs
      have := readChars_length_lt hs
      simp only [Except.ok.injEq, Prod.mk.injEq] at h
      simp only [List.length_cons, ← h.2]
      omega
  · split at h
    · rename_i word hw
      have found := List.find?_some hw
      have member := List.mem_of_find?_eq_some hw
      have short : word.1.length ≤ cs.length := by
        rw [List.isPrefixOf_iff_prefix] at found
        exact found.length_le
      have nonempty : 0 < word.1.length := by
        simp only [words, List.mem_cons, List.not_mem_nil, or_false] at member
        rcases member with h | h | h | h | h | h <;> subst h <;> decide
      simp only [Except.ok.injEq, Prod.mk.injEq] at h
      simp only [← h.2, List.length_drop]
      omega
    · exact readNumber_length_lt h

theorem readValue_length_lt {deepest : Option Nat} {next : Mode} {stack after : List Frame}
    {cs rest : List Char} (h : readValue deepest stack cs = .ok (next, after, rest)) :
    rest.length < cs.length := by
  unfold readValue at h
  split at h
  · split at h <;> simp_all
  · split at h <;> simp_all
  · split at h
    · cases h
    · rename_i hs
      have := readScalar_length_lt hs
      simp_all

theorem readName_length_lt {done : List (Text × Json)} {next : Mode} {stack after : List Frame}
    {cs rest : List Char} (h : readName done stack cs = .ok (next, after, rest)) :
    rest.length < cs.length := by
  unfold readName at h
  split at h
  · split at h
    · cases h
    · rename_i tail _ _ key afterKey hs
      have shorter := readChars_length_lt hs
      split at h
      · rename_i afterColon hc
        have := length_dropWhile_le isSpace afterKey
        simp only [skipSpace] at hc
        simp only [hc, List.length_cons] at this
        simp only [Except.ok.injEq, Prod.mk.injEq] at h
        simp only [List.length_cons, ← h.2.2]
        omega
      · cases h
  · cases h

theorem step_length_lt {deepest : Option Nat} {mode next : Mode} {stack after : List Frame}
    {cs rest : List Char} (h : step deepest mode stack cs = .ok (next, after, rest)) :
    rest.length < cs.length := by
  unfold step at h
  split at h
  · exact readValue_length_lt h
  · split at h
    · simp_all
    · exact readValue_length_lt h
  · split at h
    · simp_all
    · exact readName_length_lt h
  · exact readName_length_lt h
  · unfold readNext at h
    split at h <;> simp_all

/-- Reads on from a stack of open lists and objects. -/
def readFrom (deepest : Option Nat) (mode : Mode) (stack : List Frame) (cs : List Char) :
    Except Fault Json :=
  match mode, stack with
  | .after value, [] =>
    if (skipSpace cs).isEmpty then .ok value
    else .error (.at .extraData (skipSpace cs).length)
  | mode, stack =>
    match _h : step deepest mode stack (skipSpace cs) with
    | .error fault => .error fault
    | .ok (next, after, rest) => readFrom deepest next after rest
termination_by cs.length
decreasing_by
  have shorter := step_length_lt _h
  have := length_dropWhile_le isSpace cs
  simp only [skipSpace] at shorter
  omega

/-- Reads a document with no more than so many lists and objects open at once. -/
def readWithin (deepest : Option Nat) (cs : List Char) : Except Fault Json :=
  if cs.head? = some '\uFEFF' then .error (.at .byteOrderMark cs.length)
  else readFrom deepest .value [] cs

def read (cs : List Char) : Except Fault Json := readWithin none cs

end TreeWalk.Json
