/-!
# Strict UTF-8

`decode` reads bytes one at a time with a small machine: between characters, or inside one that
still owes some continuation bytes (`Partial`). It accepts exactly the well-formed sequences, so no
overlong form, no surrogate and nothing above U+10FFFF. It stops at the first character that is not
well formed and names that character's first byte, and it tells a character that is wrong from one
that the input merely ends in the middle of.
-/

namespace Acceptor.Text.Utf8

def encode (s : List Char) : List UInt8 := s.flatMap String.utf8EncodeChar

/-- A character whose first bytes have been read: `owed + 1` bytes are still to come, the next of
them between `low` and `high`. -/
structure Partial where
  first : UInt8
  bits : Nat
  owed : Nat
  low : UInt8
  high : UInt8

/-- Why the rest of the input has no characters. -/
inductive Stop where
  /-- No well-formed character begins like this. -/
  | illFormed (first : UInt8)
  /-- The input ends inside a character that is well formed so far. -/
  | cutShort (first : UInt8)
  /-- The input ends behind the first two bytes of a surrogate, ED and one from A0 to BF. -/
  | halfSurrogate
deriving DecidableEq, Repr

namespace Stop

/-- The byte that a message about the stop names: the first one of the character. -/
def byte : Stop → UInt8
  | .illFormed b => b
  | .cutShort b => b
  | .halfSurrogate => 0xED

/-- Whether a reader that gets its input in portions waits for more bytes before it stops. -/
def isOpen : Stop → Bool
  | .illFormed _ => false
  | .cutShort _ => true
  | .halfSurrogate => true

end Stop

/-- What the first byte of a character says about the rest of it. The narrow ranges for the second
byte shut out overlong forms (E0, F0), surrogates (ED) and code points above U+10FFFF (F4). -/
def lead (b : UInt8) : Option Partial :=
  if b < 0xC2 then none
  else if b < 0xE0 then some ⟨b, b.toNat % 0x20, 0, 0x80, 0xBF⟩
  else if b < 0xF0 then
    some ⟨b, b.toNat % 0x10, 1, if b = 0xE0 then 0xA0 else 0x80, if b = 0xED then 0x9F else 0xBF⟩
  else if b < 0xF5 then
    some ⟨b, b.toNat % 0x08, 2, if b = 0xF0 then 0x90 else 0x80, if b = 0xF4 then 0x8F else 0xBF⟩
  else none

/-- Why a character cannot go on with a byte that is out of range. -/
def Partial.refuse (p : Partial) (b : UInt8) (rest : List UInt8) : Stop :=
  if p.first = 0xED ∧ 0xA0 ≤ b ∧ b ≤ 0xBF ∧ rest = [] then .halfSurrogate else .illFormed p.first

/-- The characters up to the first that is not well formed, and the reason to stop there, if any. -/
def decodeFrom : Option Partial → List UInt8 → List Char × Option Stop
  | none, [] => ([], none)
  | some p, [] => ([], some (.cutShort p.first))
  | none, b :: rest =>
    if b < 0x80 then
      let (s, stop) := decodeFrom none rest
      (Char.ofNat b.toNat :: s, stop)
    else match lead b with
      | none => ([], some (.illFormed b))
      | some p => decodeFrom (some p) rest
  | some p, b :: rest =>
    if p.low ≤ b ∧ b ≤ p.high then
      let bits := p.bits * 0x40 + b.toNat % 0x40
      match p.owed with
      | 0 =>
        let (s, stop) := decodeFrom none rest
        (Char.ofNat bits :: s, stop)
      | owed + 1 => decodeFrom (some ⟨p.first, bits, owed, 0x80, 0xBF⟩) rest
    else ([], some (p.refuse b rest))

def decode (bytes : List UInt8) : List Char × Option Stop := decodeFrom none bytes

/-- The text that the bytes encode, or the first byte of the first character that is not well
formed. -/
def decodeAll (bytes : List UInt8) : Except UInt8 String :=
  match decode bytes with
  | (s, none) => .ok (String.ofList s)
  | (_, some stop) => .error stop.byte

end Acceptor.Text.Utf8
