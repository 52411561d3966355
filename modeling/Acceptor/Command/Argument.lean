import Acceptor.Command.Flag
import Acceptor.Text.Decimal

/-!
# What an argument is by itself

`Argument.classify` says of each argument whether it is plain, an option (perhaps with a value
attached to it), an unknown option, or the separator `--`, behind which everything is plain. A long
option may be shortened to any beginning that no other long option has. A negative number and a text
with a space in it are plain, whatever they begin with.
-/

namespace Acceptor.Command

inductive Argument where
  | plain (s : String)
  | separator
  | option (flag : Flag)
  /-- A value stands behind the name of a long option and an equals sign. -/
  | withValue (flag : Flag) (value : String)
  /-- More characters stand behind the letter of a one-letter option, after an equals sign or not. -/
  | withTail (flag : Flag) (tail : List Char)
  | unknown (s : String)
deriving DecidableEq, Repr

namespace Argument

def isDigits (s : List Char) : Bool := !s.isEmpty && s.all Text.isDecimal

/-- A minus sign and a decimal number in digits of any script, perhaps at the end of a line. -/
def isNegativeNumber : List Char → Bool
  | '-' :: s =>
    let s := if s.getLast? = some '\n' then s.dropLast else s
    isDigits s || (match s.dropWhile Text.isDecimal with
      | '.' :: places => isDigits places
      | _ => false)
  | _ => false

/-- An option with the value that may be attached to it by an equals sign. -/
def attach (spelling : String) (flag : Flag) : (value? : Option (List Char)) → Argument
  | some value =>
    if spelling.startsWith "--" then .withValue flag (String.ofList value) else .withTail flag value
  | none => .option flag

/-- The options whose long spellings begin with `start`. -/
def longOptions (start : String) (value? : Option (List Char)) : List (String × Argument) :=
  (Flag.spellings.filter fun (s, _) => s.startsWith start).map fun (s, flag) => (s, attach s flag value?)

/-- The options of one letter that the characters begin with. -/
def letterOptions (chars : List Char) : List (String × Argument) :=
  (Flag.spellings.filter fun (s, _) => s.toList = chars.take 2).map fun (s, flag) =>
    (s, .withTail flag (chars.drop 2))

/-- An argument that starts with a minus sign and goes on. -/
def classifyDashed (arg : String) : Except Usage Argument :=
  let chars := arg.toList
  let name := String.ofList (chars.takeWhile (· ≠ '='))
  let value? := (chars.dropWhile (· ≠ '=')).tail?
  match Flag.ofSpelling? name with
  | some flag => .ok (attach name flag value?)
  | none =>
    match if chars.take 2 = ['-', '-'] then longOptions name value? else letterOptions chars with
    | [(_, argument)] => .ok argument
    | [] => .ok (if isNegativeNumber chars || chars.contains ' ' then .plain arg else .unknown arg)
    | candidates => .error (.ambiguous arg (candidates.map (·.1)))

def classifyOne (arg : String) : Except Usage Argument :=
  match arg.toList with
  | '-' :: _ :: _ => classifyDashed arg
  | _ => .ok (.plain arg)

def classify : List String → Except Usage (List Argument)
  | [] => .ok []
  | arg :: args =>
    if arg = "--" then .ok (.separator :: args.map .plain)
    else do
      let first ← classifyOne arg
      let rest ← classify args
      return first :: rest

end Argument

end Acceptor.Command
