import Acceptor.Command.Argument

/-!
# Requests

`Request.parse` reads the arguments from left to right. The first plain argument that no option takes
is the file; further ones, and unknown options, are complained about at the end, after every other
mistake. Asking for help ends the reading at once.
-/

namespace Acceptor.Command

structure Options where
  file : Option String
  strings : List String
  /-- The level of the log; none if it was given as `--`. -/
  level : Option Level
deriving DecidableEq, Repr

inductive Request where
  | help
  | run (options : Options)
deriving DecidableEq, Repr

/-- What has been read so far. -/
structure Progress where
  options : Options
  extra : List String

namespace Progress

def start : Progress := ⟨⟨none, [], some .warning⟩, []⟩

def hasFile (p : Progress) : Bool := p.options.file.isSome

def addExtra (p : Progress) (s : String) : Progress := { p with extra := p.extra ++ [s] }

/-- Takes the separator, which is too much unless it stands beside the file or in its place. -/
def addSeparator (p : Progress) (atFile : Bool) : Progress := if atFile then p else p.addExtra "--"

/-- Takes a plain argument, as the file if there is none yet. -/
def addPlain (p : Progress) (s : String) : Progress :=
  if p.hasFile then p.addExtra s else { p with options.file := some s }

/-- The value of an option. The separator is no value: as a word it is the empty one, and as a level
it leaves none. -/
def addValue (p : Progress) (flag : Flag) (value : String) : Except Usage Progress :=
  match flag with
  | .help => .error (.needlessValue flag value)
  | .string =>
    let word := if value = "--" then "" else value
    .ok { p with options.strings := p.options.strings ++ [word] }
  | .logLevel => match Level.ofName? value with
    | some level => .ok { p with options.level := some level }
    | none => if value = "--" then .ok { p with options.level := none } else .error (.unknownLevel value)

def finish (p : Progress) : Except Usage Request :=
  if p.extra = [] then .ok (.run p.options) else .error (.unrecognized p.extra)

end Progress

def startsPlain : List Argument → Bool
  | .plain _ :: _ => true
  | _ => false

/-- The characters behind `-h` in one argument name further one-letter options, which are looked at
before help is given. The last of them takes the rest as its value, or else the next argument. -/
def checkHelpTail (next : List Argument) : List Char → Except Usage Unit
  | [] => .error (.needlessValue .help "")
  | c :: tail =>
    match Flag.ofSpelling? (String.ofList ['-', c]), tail with
    | none, _ => .error (.needlessValue .help (String.ofList (c :: tail)))
    | some .help, [] => .ok ()
    | some .help, _ => checkHelpTail next tail
    | some flag, [] => if startsPlain next then .ok () else .error (.missingValue flag)
    | some _, _ => .ok ()

namespace Request

def parseFrom (p : Progress) : List Argument → Except Usage Request
  | [] => p.finish
  | .plain s :: .separator :: rest => parseFrom ((p.addPlain s).addSeparator (!p.hasFile)) rest
  | .plain s :: rest => parseFrom (p.addPlain s) rest
  | .separator :: rest => parseFrom (p.addSeparator (!p.hasFile)) rest
  | .unknown s :: rest => parseFrom (p.addExtra s) rest
  | .option .help :: _ => .ok .help
  | .option flag :: .plain value :: rest => do parseFrom (← p.addValue flag value) rest
  | .option flag :: _ => .error (.missingValue flag)
  | .withValue flag value :: rest => do parseFrom (← p.addValue flag value) rest
  | .withTail .help tail :: rest => do
    checkHelpTail rest tail
    return .help
  | .withTail flag tail :: rest => do parseFrom (← p.addValue flag (String.ofList tail)) rest

def parse (args : List String) : Except Usage Request := do
  parseFrom .start (← Argument.classify args)

end Request

end Acceptor.Command
