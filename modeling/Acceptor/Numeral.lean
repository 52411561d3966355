/-!
# Decimal numerals

A numeral is an optional sign and one or more ASCII digits. At most `maxDigits` digits are read,
leading zeros included; a longer numeral is refused as too long, not as malformed. `toText` is
the shortest numeral of an integer; only a `Short` one can be written.
-/

namespace Acceptor.Numeral

def maxDigits : Nat := 4300

inductive Refusal where
  | malformed
  | tooLong (digits : Nat)
deriving DecidableEq, Repr

/-- The sign (`true` for minus) and the digits of a text of numeral shape. -/
def shape? (s : List Char) : Option (Bool × List Char) :=
  let (negative, digits) := match s with
    | '+' :: digits => (false, digits)
    | '-' :: digits => (true, digits)
    | digits => (false, digits)
  if digits ≠ [] ∧ digits.all Char.isDigit then some (negative, digits) else none

def value (negative : Bool) (digits : List Char) : Int :=
  let n : Nat := Nat.ofDigitChars 10 digits 0
  if negative then -n else n

def read (s : String) : Except Refusal Int :=
  match shape? s.toList with
  | none => .error .malformed
  | some (negative, digits) =>
    if maxDigits < digits.length then .error (.tooLong digits.length)
    else .ok (value negative digits)

def toText (n : Int) : String := toString n

/-- The decimal numeral of `n` has at most `maxDigits` digits. -/
def Short (n : Int) : Prop := (Nat.toDigits 10 n.natAbs).length ≤ maxDigits

instance (n : Int) : Decidable (Short n) := inferInstanceAs (Decidable (_ ≤ _))

end Acceptor.Numeral
