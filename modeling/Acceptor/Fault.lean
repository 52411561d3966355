import Acceptor.Automaton.Failure
import Acceptor.ParseError
import Acceptor.Text.CodePoint
import Acceptor.Value

/-!
# Faults

Every reason for which an operation of the library ends without a result, and its text. A fault names
the first thing that is wrong in the order in which the operation looks at its input. What is raised for
it can be another one, as the value that a text is to show may be one that cannot be written
(`Fault.raised`).
-/

namespace Acceptor

/-- Something that holds a whole description but is no sequence of lines. -/
inductive Whole where
  | text (s : String)
  | bytes (data : List UInt8)
  | byteArray (data : List UInt8)
deriving DecidableEq, Repr

def Whole.name : Whole → String
  | .text _ => "str"
  | .bytes _ => "bytes"
  | .byteArray _ => "bytearray"

inductive Fault where
  | parse (e : ParseError)
  | numeralTooLong (digits : Nat)
  | notStateId (v : Value)
  | notSymbol (v : Value)
  /-- A list or a record stands where a key is needed. -/
  | notKey (v : Value)
  /-- Something that is to be written has a limit in its way. -/
  | unwritable (limit : Value.Limit)
  /-- The state to edit is not there. -/
  | noState
  | invalid (f : Failure)
  /-- The builder has made its automaton, or failed to, already. -/
  | spent
  /-- The level of the log is no text. -/
  | noLevel
  | notLines (given : Whole)
  /-- A single byte stands where a line is needed. -/
  | notLine
  /-- There is no regular file to read at the path. -/
  | noFile (path : String)
  /-- The path to read or write is a directory. -/
  | isDirectory (path : String)
  /-- Something on the path, or what is to be read, does not exist. -/
  | missing (path : String)
  /-- The path leads through a regular file. -/
  | throughFile (path : String)
  /-- A name in the path, or the path itself, is longer than files allow. -/
  | nameTooLong (path : String)
  /-- There is something at the path, but it may not be read. -/
  | denied (path : String)
  /-- A text with surrogates in it has no bytes. -/
  | unencodable (s : Text.Surrogates)
  /-- No path has the character U+0000 in it. -/
  | nullInPath

def Fault.message : Fault → String
  | .parse e => e.message
  | .numeralTooLong digits =>
    "Exceeds the limit (" ++ Numeral.toText Numeral.maxDigits ++
      " digits) for integer string conversion: value has " ++ Numeral.toText digits ++
      " digits; use sys.set_int_max_str_digits() to increase the limit"
  | .notStateId v => "state ids must be int, got " ++ v.literal
  | .notSymbol v => "symbols must be single non-whitespace characters, got " ++ v.literal
  | .notKey v => "unhashable type: " ++ Text.quoted v.typeName
  | .unwritable limit => limit.message
  | .noState => "'NoneType' object has no attribute 'add_transition'"
  | .invalid f => f.reason
  | .spent => "builder has already been consumed by build()"
  | .noLevel => "attribute name must be string, not 'list'"
  | .notLines given =>
    "from_stream expects a line stream, got " ++ given.name ++ "; use from_string for text"
  | .notLine => "'int' object has no attribute 'strip'"
  | .noFile path => "DFA file not found: " ++ path
  | .isDirectory path => "[Errno 21] Is a directory: " ++ Text.quoted path
  | .missing path => "[Errno 2] No such file or directory: " ++ Text.quoted path
  | .throughFile path => "[Errno 20] Not a directory: " ++ Text.quoted path
  | .nameTooLong path => "[Errno 36] File name too long: " ++ Text.quoted path
  | .denied path => "[Errno 13] Permission denied: " ++ Text.quoted path
  | .unencodable s =>
    let character := if s.count = 1 then " '\\u" ++ String.ofList (Text.hexDigits 4 s.first) ++ "'" else "s"
    let last := if s.count = 1 then "" else "-" ++ Numeral.toText (s.position + s.count - 1 : Nat)
    "'utf-8' codec can't encode character" ++ character ++ " in position " ++ Numeral.toText s.position ++ last ++
      ": surrogates not allowed"
  | .nullInPath => "embedded null byte"

/-- The value that the text of the fault shows. -/
def Fault.shown? : Fault → Option Value
  | .notStateId v => some v
  | .notSymbol v => some v
  | _ => none

/-- What is raised for the fault where `room` values can stand in each other: the value is written first. -/
def Fault.raised (room : Nat) (fault : Fault) : Fault :=
  match fault.shown?.bind fun v => v.limit? room with
  | some limit => .unwritable limit
  | none => fault

/-- Lists and records are refused before anything is looked up. -/
def Value.checkKey (v : Value) : Except Fault Unit := if v.isKey then .ok () else .error (.notKey v)

end Acceptor
