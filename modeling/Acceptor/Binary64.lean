/-!
# Binary floating point in decimal

`Binary64` is a number in 64-bit binary floating point, kept as its bits. Its text has the fewest
digits that read back to the number (`Rounding.shortest`): between the two multiples of a power of
ten next to the number, tried from the coarsest power down, the first that lies among the reals that
round to it. All comparisons are between natural numbers.
-/

namespace Acceptor

structure Binary64 where
  bits : UInt64
deriving DecidableEq, Repr

namespace Binary64

def negative (x : Binary64) : Bool := x.bits >>> 63 != 0

def exponentField (x : Binary64) : Nat := ((x.bits >>> 52) &&& 0x7FF).toNat

def fractionField (x : Binary64) : Nat := (x.bits &&& 0xFFFFFFFFFFFFF).toNat

def isFinite (x : Binary64) : Bool := x.exponentField != 0x7FF

/-- A finite number without its sign is `significand * 2 ^ exponent`. -/
def significand (x : Binary64) : Nat :=
  if x.exponentField = 0 then x.fractionField else 0x10000000000000 + x.fractionField

def exponent (x : Binary64) : Int := (max x.exponentField 1 : Nat) - 1075

/-- The integer that the number is, if it is one. -/
def integer? (x : Binary64) : Option Int :=
  let scale := 1 <<< (-x.exponent).toNat
  let shifted := x.significand <<< x.exponent.toNat
  if x.isFinite && shifted % scale == 0 then
    let n : Nat := shifted / scale
    some (if x.negative then -n else n)
  else none

/-- A positive number and the ends of the interval of reals that round to it, all as multiples of one
power of ten. -/
structure Rounding where
  low : Nat
  value : Nat
  high : Nat
  exponent : Int
  /-- The ends themselves round to the number. -/
  closed : Bool

/-- The ends lie halfway to the neighbours. Right above a power of two the neighbour below is half as
far away as the one above. -/
def rounding (x : Binary64) : Rounding :=
  let scale := Nat.pow 5 (2 - x.exponent).toNat <<< (x.exponent - 2).toNat
  let four := 4 * x.significand
  let narrowBelow := x.fractionField == 0 && x.exponentField > 1
  { low := (four - if narrowBelow then 1 else 2) * scale
    value := four * scale
    high := (four + 2) * scale
    exponent := min 0 (x.exponent - 2)
    closed := x.significand % 2 == 0 }

namespace Rounding

def contains (r : Rounding) (n : Nat) : Bool :=
  (r.low < n && n < r.high) || (r.closed && (n == r.low || n == r.high))

/-- The nearest multiple of the coarsest power of ten, at most `10 ^ dropped`, that has one among the
reals that round to the number. Halfway between two multiples the one with the even digit is taken. -/
def shortest (r : Rounding) : Nat → Nat
  | 0 => r.value
  | dropped + 1 =>
    let unit := Nat.pow 10 (dropped + 1)
    let digit := r.value / unit
    let below := digit * unit
    let above := below + unit
    match r.contains below, r.contains above with
    | false, false => r.shortest dropped
    | true, false => below
    | false, true => above
    | true, true =>
      match compare (r.value - below) (above - r.value) with
      | .lt => below
      | .gt => above
      | .eq => if digit % 2 = 0 then below else above

end Rounding

/-- The decimal digits of a positive number without trailing zeros, and the place of the point counted
from the first of them. -/
def decimalDigits (x : Binary64) : List Char × Int :=
  let r := x.rounding
  let digits := Nat.toDigits 10 (r.shortest ((Nat.toDigits 10 r.value).length - 1))
  ((digits.reverse.dropWhile (· == '0')).reverse, digits.length + r.exponent)

/-- From 0.0001 up to 10^16 digits stand around a point, which has a digit on either side; all other
numbers have one digit in front of the point and a signed exponent of at least two digits. -/
def layout (digits : List Char) (point : Int) : List Char :=
  if point ≤ -4 ∨ 16 < point then
    let e := point - 1
    let sign := if e < 0 then '-' else '+'
    let places := Nat.toDigits 10 e.natAbs
    let fraction := if digits.tail.isEmpty then [] else '.' :: digits.tail
    digits.take 1 ++ fraction ++ 'e' :: sign :: (if places.length < 2 then '0' :: places else places)
  else if point ≤ 0 then
    '0' :: '.' :: List.replicate (-point).toNat '0' ++ digits
  else
    let whole := digits.take point.toNat
    let rest := digits.drop point.toNat
    whole ++ List.replicate (point.toNat - whole.length) '0' ++ '.' :: (if rest.isEmpty then ['0'] else rest)

def toText (x : Binary64) : String :=
  let sign := if x.negative then "-" else ""
  if !x.isFinite then if x.fractionField = 0 then sign ++ "inf" else "nan"
  else if x.significand = 0 then sign ++ "0.0"
  else
    let (digits, point) := x.decimalDigits
    sign ++ String.ofList (layout digits point)

end Binary64

end Acceptor
