/-!
# Blank characters

`isBlank` is the only notion of white space in the library. It decides where a line is trimmed
(`trim`), where it is cut into tokens (`words`) and which characters cannot be symbols, so a symbol
that is accepted anywhere is a token of its own everywhere.
-/

namespace Acceptor.Text

/-- `c` lies in one of the closed ranges of code points. -/
def inRanges (ranges : List (Nat × Nat)) (c : Char) : Bool :=
  ranges.any fun r => r.1 ≤ c.toNat && c.toNat ≤ r.2

/-- The Unicode white space together with the information separators U+001C to U+001F, as closed
ranges, ascending and apart. -/
def blankRanges : List (Nat × Nat) :=
  [(0x09, 0x0D), (0x1C, 0x20), (0x85, 0x85), (0xA0, 0xA0), (0x1680, 0x1680), (0x2000, 0x200A),
   (0x2028, 0x2029), (0x202F, 0x202F), (0x205F, 0x205F), (0x3000, 0x3000)]

def isBlank (c : Char) : Bool := inRanges blankRanges c

/-- The text without the blanks at its two ends. -/
def trimBlanks (s : List Char) : List Char :=
  ((s.dropWhile isBlank).reverse.dropWhile isBlank).reverse

/-- The maximal runs of characters that are not blank. -/
def blankSeparated (s : List Char) : List (List Char) :=
  (s.splitOnP isBlank).filter (!·.isEmpty)

def trim (s : String) : String := String.ofList (trimBlanks s.toList)

def words (s : String) : List String := (blankSeparated s.toList).map String.ofList

end Acceptor.Text
