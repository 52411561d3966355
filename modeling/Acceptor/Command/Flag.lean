import Acceptor.Command.Log
import Acceptor.Text.Quoted

/-!
# Options and mistakes in their use

A `Flag` is an option of the program under any of its spellings. A `Usage` is a mistake that keeps the
arguments from being a request; `Usage.message` is its text without the synopsis.
-/

namespace Acceptor.Command

inductive Flag where
  | help
  | string
  | logLevel
deriving DecidableEq, Repr

namespace Flag

/-- Every spelling of an option. -/
def spellings : List (String × Flag) :=
  [("-h", .help), ("--help", .help), ("-s", .string), ("--string", .string), ("--log-level", .logLevel)]

def ofSpelling? (s : String) : Option Flag := spellings.lookup s

/-- How messages name an option. -/
def title : Flag → String
  | .help => "-h/--help"
  | .string => "-s/--string"
  | .logLevel => "--log-level"

end Flag

/-- A mistake in the arguments. -/
inductive Usage where
  | ambiguous (arg : String) (candidates : List String)
  | missingValue (flag : Flag)
  | needlessValue (flag : Flag) (value : String)
  | unknownLevel (value : String)
  | unrecognized (args : List String)
deriving DecidableEq, Repr

namespace Usage

def levelChoices : String := ", ".intercalate (Level.all.map fun l => Text.quoted l.name)

def message : Usage → String
  | .ambiguous arg candidates =>
    "ambiguous option: " ++ arg ++ " could match " ++ ", ".intercalate candidates
  | .missingValue flag => "argument " ++ flag.title ++ ": expected one argument"
  | .needlessValue flag value =>
    "argument " ++ flag.title ++ ": ignored explicit argument " ++ Text.quoted value
  | .unknownLevel value =>
    "argument " ++ Flag.logLevel.title ++ ": invalid choice: " ++ Text.quoted value ++
      " (choose from " ++ levelChoices ++ ")"
  | .unrecognized args => "unrecognized arguments: " ++ " ".intercalate args

end Usage

end Acceptor.Command
