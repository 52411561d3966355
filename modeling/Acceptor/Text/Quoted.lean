import Acceptor.Text.Printable

/-!
# Quoted text

Messages show tokens and values between quotes, so that blanks and controls are visible. The quote
is `'`, or `"` for a text that holds `'` and no `"`. Inside, a backslash and the quote in use follow
a backslash, tab, line feed and carriage return are `\t`, `\n` and `\r`, and every other character
that is not printable is its code point in hexadecimal, in two, four or eight digits.
-/

namespace Acceptor.Text

/-- The last `width` hexadecimal digits of `n`, in lower case. -/
def hexDigits : Nat → Nat → List Char
  | 0, _ => []
  | width + 1, n => hexDigits width (n / 16) ++ [Nat.digitChar (n % 16)]

/-- A character that is not printable, as its code point. -/
def escapeCode (c : Char) : List Char :=
  if c.toNat < 0x100 then ['\\', 'x'] ++ hexDigits 2 c.toNat
  else if c.toNat < 0x10000 then ['\\', 'u'] ++ hexDigits 4 c.toNat
  else ['\\', 'U'] ++ hexDigits 8 c.toNat

/-- How `c` is written between two `quote`s. -/
def quoteChar (quote c : Char) : List Char :=
  if c = quote ∨ c = '\\' then ['\\', c]
  else if c = '\t' then ['\\', 't']
  else if c = '\n' then ['\\', 'n']
  else if c = '\r' then ['\\', 'r']
  else if isPrintable c then [c]
  else escapeCode c

def quoteMark (s : List Char) : Char :=
  if s.contains '\'' && !s.contains '"' then '"' else '\''

def quoted (s : String) : String :=
  let q := quoteMark s.toList
  String.ofList (q :: s.toList.flatMap (quoteChar q) ++ [q])

/-- A byte outside ASCII, as two hexadecimal digits behind a `b` that tells it from a text. -/
def quotedByte (b : UInt8) : String :=
  String.ofList (['b', '\'', '\\', 'x'] ++ hexDigits 2 b.toNat ++ ['\''])

end Acceptor.Text
