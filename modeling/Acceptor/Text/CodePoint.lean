import Acceptor.Text.Blank
import Acceptor.Text.Utf8

/-!
# Code points

A text in memory may hold surrogates as well as characters. UTF-8 has no bytes for a surrogate, so a text is encoded
whole or not at all.
-/

namespace Acceptor.Text

inductive CodePoint where
  | char (c : Char)
  /-- Half of a character in an encoding that has two halves for some of them, from U+D800 on. -/
  | surrogate (n : Fin 0x800)
deriving DecidableEq, Repr

namespace CodePoint

def toNat : CodePoint → Nat
  | char c => c.toNat
  | surrogate n => 0xD800 + n

instance : LT CodePoint := ⟨fun a b => a.toNat < b.toNat⟩

instance (a b : CodePoint) : Decidable (a < b) := inferInstanceAs (Decidable (a.toNat < b.toNat))

def isSurrogate : CodePoint → Bool
  | char _ => false
  | surrogate _ => true

/-- No surrogate is blank. -/
def isBlank : CodePoint → Bool
  | char c => Text.isBlank c
  | surrogate _ => false

def char? : CodePoint → Option Char
  | char c => some c
  | surrogate _ => none

end CodePoint

def codePoints (s : String) : List CodePoint := s.toList.map .char

/-- The first surrogates of a text, next to each other. -/
structure Surrogates where
  first : Nat
  position : Nat
  count : Nat
deriving DecidableEq, Repr

def surrogatesOf (s : List CodePoint) : Surrogates :=
  let rest := s.dropWhile (!·.isSurrogate)
  { first := (rest.head?.map CodePoint.toNat).getD 0
    position := s.length - rest.length
    count := (rest.takeWhile CodePoint.isSurrogate).length }

/-- The bytes of a text, or the surrogates that stand first in it. -/
def Utf8.encodeAll (s : List CodePoint) : Except Surrogates (List UInt8) :=
  match s.mapM CodePoint.char? with
  | some cs => .ok (encode cs)
  | none => .error (surrogatesOf s)

end Acceptor.Text
