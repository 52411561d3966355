import Acceptor.Description.Line
import Acceptor.Text.Lines

/-!
# Where a description is read from

Every source is a list of raw lines. `contentLines` numbers them from one, trims them and drops the
blank ones, up to the end or to the first line that cannot be decoded.
-/

namespace Acceptor

/-- A line handed over on its own; line feeds inside it do not end it. -/
inductive Piece where
  | text (s : String)
  | bytes (data : List UInt8)

def Piece.raw : Piece → Text.RawLine
  | .text s => .ok s
  | .bytes data => Text.Utf8.decodeAll data

inductive Source where
  /-- A text, cut at line feeds. -/
  | text (s : String)
  /-- Bytes, cut at line feeds and then decoded line by line. -/
  | bytes (data : List UInt8)
  /-- A text file over the bytes. -/
  | file (data : List UInt8)
  | lines (pieces : List Piece)
  /-- A whole description handed over in place of its lines. -/
  | whole (given : Whole)

/-- The raw lines of a source; a whole description is refused. -/
def Source.rawLines : Source → Except Fault (List Text.RawLine)
  | .text s => .ok ((Text.textLines s.toList).map fun l => .ok (String.ofList l))
  | .bytes data => .ok (Text.byteLines data)
  | .file data => .ok (Text.fileLines data)
  | .lines pieces => .ok (pieces.map Piece.raw)
  | .whole given => .error (.notLines given)

/-- The numbered content lines from line `number` on, and the error that ends them early, if any. -/
def contentLinesFrom (number : Nat) : List Text.RawLine → List (Nat × String) × Option ParseError
  | [] => ([], none)
  | .error byte :: _ => ([], some ⟨.undecodable byte, some number, none⟩)
  | .ok s :: lines =>
    let (rest, stop) := contentLinesFrom (number + 1) lines
    let content := Text.trim s
    (if content = "" then rest else (number, content) :: rest, stop)

def contentLines (lines : List Text.RawLine) : List (Nat × String) × Option ParseError :=
  contentLinesFrom 1 lines

/-- What a whole description is made of: each character of a text is a line of its own, and no byte is
a line. -/
def Whole.rawLines : Whole → Except Fault (List Text.RawLine)
  | .text s => .ok (s.toList.map fun c => .ok (String.singleton c))
  | .bytes data | .byteArray data => if data = [] then .ok [] else .error .notLine

/-- The content lines of whatever comes out of the source, and the fault that ends them early, if any. -/
def Source.contentLines (source : Source) : List (Nat × String) × Option Fault :=
  let lines := match source with
    | .whole given => given.rawLines
    | _ => source.rawLines
  match lines with
  | .ok lines => (Acceptor.contentLines lines).map id fun stop => stop.map .parse
  | .error fault => ([], some fault)

end Acceptor
