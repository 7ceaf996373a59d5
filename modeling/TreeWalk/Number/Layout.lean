import TreeWalk.Number.Shortest

/-!
The texts of numbers. A number is shown by its shortest decimal, with a point or with an exponent
according to its size; where it joins a text it has two places after the point.
-/

set_option autoImplicit false

namespace TreeWalk.Number

/-- How a decimal is laid out: with a point where the exponent of its first digit lies in a range,
otherwise with an exponent of at least `exponentWidth` digits after a sign. -/
structure Layout where
  leastPositional : Int
  leastScientific : Int
  exponentWidth : Nat

/-- Numbers from `1e-4` on and below `1e16` are written with a point and at least one place. -/
def layout : Layout := ⟨-4, 16, 2⟩

def zeroPad (width : Nat) (cs : List Char) : List Char :=
  List.replicate (width - cs.length) '0' ++ cs

/-- Digits with a point after the first `point` of them; `point` may lie outside of the row. -/
def positional (digits : List Char) (point : Int) : List Char :=
  if point ≤ 0 then '0' :: '.' :: (List.replicate point.natAbs '0' ++ digits)
  else
    let whole := digits.take point.toNat
    let fraction := digits.drop point.toNat
    whole ++ List.replicate (point.toNat - digits.length) '0' ++
      '.' :: (if fraction.isEmpty then ['0'] else fraction)

/-- The first digit, the others after a point, and the exponent of the first. -/
def scientific (width : Nat) (digits : List Char) (exponent : Int) : List Char :=
  let fraction := digits.drop 1
  let sign := if exponent < 0 then '-' else '+'
  digits.take 1 ++ (if fraction.isEmpty then [] else '.' :: fraction) ++
    'e' :: sign :: zeroPad width (Nat.toDigits 10 exponent.natAbs)

def Layout.write (l : Layout) (d : Decimal) : List Char :=
  let digits := Nat.toDigits 10 d.digits
  let point := d.exponent + digits.length
  if l.leastPositional ≤ point - 1 ∧ point - 1 < l.leastScientific then positional digits point
  else scientific l.exponentWidth digits (point - 1)

/-- The three words for what has no digits. -/
def word (negative : Bool) (isNan : Bool) : String :=
  if isNan then "nan" else if negative then "-inf" else "inf"

def signed (negative : Bool) (cs : List Char) : String :=
  String.ofList (if negative then '-' :: cs else cs)

def text (x : Float) : String :=
  match parts x with
  | .nan => word false true
  | .infinite negative => word negative false
  | .finite negative 0 _ => signed negative ['0', '.', '0']
  | .finite negative mantissa shift =>
    signed negative (layout.write (Decimal.shortest mantissa shift))

/-- The text of a double with a fixed number of places, the last one rounded to nearest and to the
even neighbour in a tie. -/
def fixedText (places : Nat) (x : Float) : String :=
  match parts x with
  | .nan => word false true
  | .infinite negative => word negative false
  | .finite negative mantissa shift =>
    let n := ((Fraction.ofParts mantissa shift).scaleDown (-(places : Int))).round
    let digits := zeroPad (places + 1) (Nat.toDigits 10 n)
    let whole := digits.length - places
    signed negative (digits.take whole ++ '.' :: digits.drop whole)

end TreeWalk.Number
