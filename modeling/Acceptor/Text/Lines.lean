import Acceptor.Text.Utf8

/-!
# Cutting input into lines

A raw line is a text, or the first byte that could not be decoded; nothing is read behind such a
byte. Lines end at U+000A and at no other separator. A text file also ends lines at U+000D, alone
or before U+000A, and is decoded as a whole before its first line is seen.
-/

namespace Acceptor.Text

/-- One line of input, or the byte that kept it from being decoded. -/
abbrev RawLine := Except UInt8 String

/-- The pieces between the line feeds; the last one may be empty. -/
def textLines (s : List Char) : List (List Char) := s.splitOnP (· == '\n')

/-- Bytes are cut before they are decoded, each line on its own. -/
def byteLines (bytes : List UInt8) : List RawLine :=
  (bytes.splitOnP (· == 0x0A)).map Utf8.decodeAll

/-- Writes every line end as a single line feed. -/
def unifyLineEnds : List Char → List Char
  | [] => []
  | '\r' :: '\n' :: s => '\n' :: unifyLineEnds s
  | '\r' :: s => '\n' :: unifyLineEnds s
  | c :: s => c :: unifyLineEnds s

/-- A carriage return at the very end may be half of a line end that is still to come. -/
def withoutOpenLineEnd (s : List Char) : List Char :=
  if s.getLast? = some '\r' then s.dropLast else s

/-- The lines of a text file. Bytes that are not well formed spoil the first line, wherever they are.
A character that the file ends in the middle of spoils only the last line. -/
def fileLines (bytes : List UInt8) : List RawLine :=
  match Utf8.decode bytes with
  | (s, none) => (textLines (unifyLineEnds s)).map fun l => .ok (String.ofList l)
  | (s, some stop) =>
    let whole := (textLines (unifyLineEnds (withoutOpenLineEnd s))).dropLast
    (if stop.isOpen then whole.map fun l => .ok (String.ofList l) else []) ++ [.error stop.byte]

/-- The replies typed on standard input: lines of any of the three kinds, the last one only if it
holds something. -/
def replies (s : String) : List String :=
  let pieces := textLines (unifyLineEnds s.toList)
  let complete := if pieces.getLast? = some [] then pieces.dropLast else pieces
  complete.map String.ofList

end Acceptor.Text
