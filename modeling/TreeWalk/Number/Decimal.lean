import TreeWalk.Text.Blank
import TreeWalk.Text.Digit

/-!
Decimal numerals: what they stand for as doubles, and the written forms that are read as one.
-/

set_option autoImplicit false

namespace TreeWalk

/-- The number `digits * 10 ^ exponent`. -/
structure Decimal where
  digits : Nat
  exponent : Int
  deriving DecidableEq, Repr

namespace Decimal

/-- The nearest double, ties to the even neighbour, infinite beyond the finite ones. -/
def toFloat (d : Decimal) : Float :=
  Float.ofScientific d.digits (d.exponent < 0) d.exponent.natAbs

/-- The decimal of an integer part and a fraction, both rows of digits. -/
def ofDigits (whole fraction : List Char) : Decimal :=
  ⟨Text.digitsValue (whole ++ fraction), -(fraction.length : Int)⟩

end Decimal

namespace Numeral

/-- Removes the underscores that stand between two digits; none if one stands elsewhere. -/
def dropUnderscores (before : Bool) : List Char → Option (List Char)
  | [] => some []
  | '_' :: cs =>
    match cs with
    | c :: _ => if before && Text.isDigit c then dropUnderscores false cs else none
    | [] => none
  | c :: cs => (dropUnderscores (Text.isDigit c) cs).map (c :: ·)

/-- Splits off a sign; the flag says whether it is a minus. -/
def takeSign : List Char → Bool × List Char
  | '-' :: cs => (true, cs)
  | '+' :: cs => (false, cs)
  | cs => (false, cs)

/-- The digits that come first in a text, after blanks and a sign; none if an underscore among them
does not stand between two. -/
def leadingDigits? (s : String) : Option (List Char) :=
  let (_, cs) := takeSign (Text.trimBy Text.isNumberBlank s.toList)
  dropUnderscores false (cs.takeWhile fun c => Text.isDigit c || c = '_')

/-- An integer: blanks around it, a sign, digits of any script. -/
def readInt? (s : String) : Option Int := do
  let (negative, cs) := takeSign (Text.trimBy Text.isNumberBlank s.toList)
  let cs ← dropUnderscores false cs
  guard (!cs.isEmpty && cs.all Text.isDigit)
  let n : Int := Text.digitsValue cs
  return if negative then -n else n

def readExponent? (cs : List Char) : Option Int := do
  let (negative, cs) := takeSign cs
  guard (!cs.isEmpty && cs.all Text.isDigit)
  let n : Int := Text.digitsValue cs
  return if negative then -n else n

/-- Digits, a point and a fraction, an exponent; one of the two rows of digits may be empty. -/
def readDecimal? (cs : List Char) : Option Decimal := do
  let whole := cs.takeWhile Text.isDigit
  let (fraction, rest) :=
    match cs.dropWhile Text.isDigit with
    | '.' :: rest => (rest.takeWhile Text.isDigit, rest.dropWhile Text.isDigit)
    | rest => ([], rest)
  guard (!(whole.isEmpty && fraction.isEmpty))
  let d := Decimal.ofDigits whole fraction
  match rest with
  | [] => return d
  | e :: rest =>
    guard (e = 'e' || e = 'E')
    return { d with exponent := d.exponent + (← readExponent? rest) }

def infinity : Float := Float.ofBits 0x7FF0000000000000
def notANumber : Float := Float.ofBits 0x7FF8000000000000

/-- A numeral or a word for an infinity or for no number, without a sign. -/
def readUnsigned? (cs : List Char) : Option Float :=
  match String.ofList (cs.map Char.toLower) with
  | "inf" | "infinity" => some infinity
  | "nan" => some notANumber
  | _ => ((dropUnderscores false cs).bind readDecimal?).map Decimal.toFloat

/-- A double: blanks around it, a sign, and a numeral or a word. -/
def readFloat? (s : String) : Option Float :=
  let (negative, cs) := takeSign (Text.trimBy Text.isNumberBlank s.toList)
  (readUnsigned? cs).map fun x => if negative then -x else x

end Numeral

end TreeWalk
