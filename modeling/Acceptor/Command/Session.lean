import Acceptor.Analysis.Batch
import Acceptor.Command.Help
import Acceptor.Command.Loading
import Acceptor.Command.Request
import Acceptor.Files

/-!
# Sessions

A session loads one description and tests words against its automaton: the words given as options, or
else the replies typed at a prompt. Without a file it first asks for one until a reply names a regular
file. It is always in one of three stages: `Stage.react` answers one reply, and `converse` all of
them, with a prompt before each.
-/

namespace Acceptor.Command

/-- What is at a path: the contents of a regular file, or the fault that there is none or that it may not be read. -/
abbrev Reader := String → Except Fault (List UInt8)

def filePrompt : String := "Enter the DFA file name: "

def wordPrompt : String := "Enter string ['quit' to exit]: "

def quitReply : String := "quit"

def verdict (accepted : Bool) : String :=
  if accepted then "That line is valid with this DFA!\n\n" else "That line isn't valid with this DFA.\n\n"

def batchVerdict (accepted : Bool) : String := if accepted then "accept\n" else "reject\n"

def missingFile : Event := .error "The specified file didn't exist!"

/-- What a session waits for. -/
inductive Stage where
  /-- The name of a file. -/
  | file
  /-- A word for the automaton. -/
  | word (d : Automaton)
  | over (status : Status)

def testAll (d : Automaton) (words : List String) : List Event :=
  (d.acceptsAll words).map fun accepted => .shown (batchVerdict accepted)

namespace Stage

/-- The stage behind the file at a path, with what happens on the way. -/
def ofFile (words : List String) (path : String) (contents : Except Fault (List UInt8)) :
    List Event × Stage :=
  match load path contents with
  | (events, .error status) => (events, .over status)
  | (events, .ok d) =>
    if words = [] then (events, .word d) else (events ++ testAll d words, .over (.exit 0))

/-- An empty file name counts as none. -/
def start (read : Reader) (options : Options) : List Event × Stage :=
  match options.file with
  | none | some "" => ([], .file)
  | some name =>
    let path := (Path.ofText name).toText
    ofFile options.strings path (read path)

/-- What is shown before a reply is read; nothing when none will be. -/
def prompt? : Stage → Option String
  | .file => some filePrompt
  | .word _ => some wordPrompt
  | .over _ => none

/-- The status if the replies end at this stage. -/
def status : Stage → Status
  | .over status => status
  | _ => .exit 0

def react (read : Reader) (words : List String) (reply : String) : Stage → List Event × Stage
  | .file =>
    let path := (Path.ofText reply).toText
    match read path with
    | .ok bytes => ofFile words path (.ok bytes)
    | .error (.nameTooLong path) => ([], .over (.escaped (.nameTooLong path)))
    | .error (.denied path) => ofFile words path (.error (.denied path))
    | .error _ => ([missingFile], .file)
  | .word d =>
    if reply = quitReply then ([], .over (.exit 0)) else ([.shown (verdict (d.accepts reply))], .word d)
  | .over status => ([], .over status)

end Stage

/-- Asks for replies, one prompt for each and one that meets the end, until the session is over. -/
def converse (read : Reader) (words : List String) (stage : Stage) : List String → Transcript
  | [] => ⟨stage.prompt?.toList.map .shown, stage.status, []⟩
  | reply :: replies =>
    match stage.prompt? with
    | none => ⟨[], stage.status, reply :: replies⟩
    | some prompt =>
      let (events, next) := stage.react read words reply
      (converse read words next replies).after (.shown prompt :: events)

def session (read : Reader) (options : Options) (replies : List String) : Transcript :=
  let (events, stage) := Stage.start read options
  (converse read options.strings stage replies).after events

/-- A run of the program on arguments and standard input. -/
def run (read : Reader) (args : List String) (input : String) : Outcome :=
  match Request.parse args with
  | .error usage => ⟨.exit 2, "", usage.complaint⟩
  | .ok .help => ⟨.exit 0, helpText, ""⟩
  | .ok (.run options) =>
    match options.level with
    | none => ⟨.escaped .noLevel, "", ""⟩
    | some level => (session read options ((Text.replies input).map Text.trim)).outcome level

end Acceptor.Command
