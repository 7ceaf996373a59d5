import TreeWalk.Number.Basic
import TreeWalk.Number.Decimal

/-!
The shortest decimal of a double: the fewest digits that read back as it, and among those of that
length the nearest to it. All arithmetic is exact; a candidate is tested by reading it.
-/

set_option autoImplicit false

namespace TreeWalk

/-- The positive fraction `num / den`. -/
structure Fraction where
  num : Nat
  den : Nat
  deriving DecidableEq, Repr

namespace Fraction

/-- `mantissa * 2 ^ shift` units of `2 ^ (-1074)`. -/
def ofParts (mantissa shift : Nat) : Fraction :=
  if 1074 ≤ shift then ⟨mantissa <<< (shift - 1074), 1⟩ else ⟨mantissa, 1 <<< (1074 - shift)⟩

/-- The fraction divided by `10 ^ e`. -/
def scaleDown (q : Fraction) (e : Int) : Fraction :=
  let power := Nat.pow 10 e.natAbs
  if e < 0 then ⟨q.num * power, q.den⟩ else ⟨q.num, q.den * power⟩

def digitCount (n : Nat) : Nat := (Nat.toDigits 10 n).length

/-- The number of digits before the point: the least `k` with `num / den < 10 ^ k`. -/
def magnitude (q : Fraction) : Int :=
  let k : Int := digitCount q.num - digitCount q.den
  let scaled := q.scaleDown k
  if scaled.den ≤ scaled.num then k + 1 else k

/-- The nearest integer, ties to the even one. -/
def round (q : Fraction) : Nat :=
  let floor := q.num / q.den
  let rest := 2 * (q.num % q.den)
  if rest < q.den then floor
  else if rest = q.den then floor + floor % 2
  else floor + 1

end Fraction

namespace Decimal

/-- The same number without zeros at the end of its digits. -/
def trimZeros (d : Decimal) : (fuel : Nat) → Decimal
  | 0 => d
  | fuel + 1 =>
    if d.digits ≠ 0 ∧ d.digits % 10 = 0 then
      trimZeros ⟨d.digits / 10, d.exponent + 1⟩ fuel
    else d

/-- The digits of a finite double in full: it needs no more places than `2 ^ (-1074)` has. -/
def ofParts (mantissa shift : Nat) : Decimal :=
  if 1074 ≤ shift then ⟨mantissa <<< (shift - 1074), 0⟩
  else ⟨mantissa * Nat.pow 5 (1074 - shift), -((1074 - shift : Nat) : Int)⟩

/-- Of the two decimals around `q` whose last place is `10 ^ e`, those that read back as `x`, and
of two the nearer, the even one in a tie. -/
def neighbour? (x : Float) (q : Fraction) (e : Int) : Option Decimal :=
  let scaled := q.scaleDown e
  let nearest : Decimal := ⟨scaled.round, e⟩
  if nearest.toFloat = x then some nearest
  else
    let floor := scaled.num / scaled.den
    let other : Decimal := ⟨if scaled.round = floor then floor + 1 else floor, e⟩
    if other.toFloat = x then some other else none

/-- Tries `digits` digits, then one more, and so on. -/
def shortestFrom (x : Float) (q : Fraction) (digits : Nat) : (tries : Nat) → Option Decimal
  | 0 => none
  | tries + 1 =>
    (neighbour? x q (q.magnitude - digits)).orElse fun _ => shortestFrom x q (digits + 1) tries

/-- The shortest decimal that reads back as the double with these parts; seventeen digits are
always enough. -/
def shortest (mantissa shift : Nat) : Decimal :=
  let full := ofParts mantissa shift
  match shortestFrom full.toFloat (Fraction.ofParts mantissa shift) 1 17 with
  | some d => trimZeros d 17
  | none => full

end Decimal

end TreeWalk
