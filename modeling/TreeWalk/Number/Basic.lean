/-!
Numbers: doubles and unbounded integers. A double is taken apart into the integer multiple of a
power of two that it stands for. Every finite double is a whole number of units of `2 ^ (-1074)`,
so all finite numbers, doubles and integers alike, are compared as integers.
-/

set_option autoImplicit false

namespace TreeWalk

inductive Number where
  | double (x : Float)
  | whole (n : Int)
  deriving DecidableEq

namespace Number

/-- A double taken apart: a finite one is `mantissa * 2 ^ shift` units of `2 ^ (-1074)`. -/
inductive Parts where
  | nan
  | infinite (negative : Bool)
  | finite (negative : Bool) (mantissa shift : Nat)
  deriving DecidableEq, Repr

/-- A double is a sign bit, eleven bits of exponent and fifty-two of fraction. The least exponent
has no leading bit, the greatest one is kept for infinities and what is no number. -/
def parts (x : Float) : Parts :=
  let bits := x.toBits.toNat
  let negative := bits.testBit 63
  let exponent := (bits >>> 52) % 2048
  let fraction := bits % (1 <<< 52)
  if exponent = 2047 then
    if fraction = 0 then .infinite negative else .nan
  else if exponent = 0 then .finite negative fraction 0
  else .finite negative ((1 <<< 52) + fraction) (exponent - 1)

/-- The value of a number, with nothing rounded. -/
inductive Exact where
  | nan
  | negativeInfinity
  | finite (units : Int)
  | positiveInfinity
  deriving DecidableEq, Repr

def Parts.exact : Parts → Exact
  | .nan => .nan
  | .infinite true => .negativeInfinity
  | .infinite false => .positiveInfinity
  | .finite true mantissa shift => .finite (-(mantissa <<< shift : Nat))
  | .finite false mantissa shift => .finite (mantissa <<< shift : Nat)

/-- The number one, in units of `2 ^ (-1074)`. -/
def one : Nat := 1 <<< 1074

def exact : Number → Exact
  | .double x => (parts x).exact
  | .whole n => .finite (n * one)

/-- The order of two values; nothing compares with what is no number. -/
def Exact.compare : Exact → Exact → Option Ordering
  | .nan, _ | _, .nan => none
  | .finite a, .finite b => some (Ord.compare a b)
  | .negativeInfinity, .negativeInfinity | .positiveInfinity, .positiveInfinity => some .eq
  | .negativeInfinity, _ | _, .positiveInfinity => some .lt
  | .positiveInfinity, _ | _, .negativeInfinity => some .gt

def compare (a b : Number) : Option Ordering := a.exact.compare b.exact

def equal (a b : Number) : Bool := compare a b == some .eq
def less (a b : Number) : Bool := compare a b == some .lt
def lessEqual (a b : Number) : Bool := (compare a b).any Ordering.isLE

/-- The nearest double, ties to the even neighbour; none where that is beyond the finite ones. -/
def toDouble? : Number → Option Float
  | .double x => some x
  | .whole n =>
    let x := Float.ofInt n
    if x.isInf then none else some x

def truncate? (x : Float) : Option Int :=
  match parts x with
  | .finite negative mantissa shift =>
    let n : Nat := (mantissa <<< shift) / one
    some (if negative then -n else n)
  | _ => none

end Number

end TreeWalk
