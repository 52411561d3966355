import Acceptor.Description.Format
import Acceptor.Operation

/-!
# Descriptions in files

A `Store` is the contents of a working directory: directories and regular files under it, without
links. Above it and at the root nothing is known but the directories themselves. `Store.place` follows
a path step by step and says where it leads. `Store.read` finds regular files only. To save is an
`Operation`: the file is opened, and empty from then on, before there are bytes to put in it.
-/

namespace Acceptor

/-- A path without its empty and `.` parts. -/
structure Path where
  /-- The slashes of an absolute path, empty otherwise. -/
  root : String
  parts : List String
deriving DecidableEq, Repr

namespace Path

/-- The names between the slashes, `.` and `..` among them. -/
def steps (s : String) : List String :=
  ((s.toList.splitOnP (· == '/')).map String.ofList).filter (· ≠ "")

/-- Two slashes in front are kept, any other number of them counts as one. -/
def ofText (s : String) : Path where
  root := match (s.toList.takeWhile (· == '/')).length with
    | 0 => ""
    | 2 => "//"
    | _ => "/"
  parts := (steps s).filter (· ≠ ".")

def toText (p : Path) : String :=
  if p.root = "" ∧ p.parts = [] then "." else p.root ++ "/".intercalate p.parts

/-- A path has at most this many bytes. -/
def maxBytes : Nat := 4095

/-- A name in a path has at most this many bytes. -/
def maxNameBytes : Nat := 255

def isLong (s : String) : Bool := maxBytes < s.utf8ByteSize

def isLongName (name : String) : Bool := maxNameBytes < name.utf8ByteSize

def hasNull (s : String) : Bool := s.toList.contains '\x00'

end Path

/-- Where a path leads. -/
inductive Place where
  | directory
  | file (name : List String)
  /-- Nothing is there yet, but the directory around it exists. -/
  | free (name : List String)
  | nowhere
  | throughFile
  /-- To a name that is too long, the last one of the path or one before it. -/
  | longName (last : Bool)

/-- Files and directories are named by the steps that lead to them from the working directory; a name
that starts with `/` starts at the root. -/
structure Store where
  directories : List (List String)
  files : OrderedMap (List String) (List UInt8)

namespace Store

def empty : Store := ⟨[], ∅⟩

/-- The root, the working directory and those above it are always there. -/
def isDirectory (s : Store) (name : List String) : Bool :=
  name == ["/"] || name.all (· == "..") || s.directories.contains name

/-- The directory above a directory; the root is above itself. -/
def above (here : List String) : List String :=
  if here = ["/"] then here else if here.all (· == "..") then here ++ [".."] else here.dropLast

/-- Follows steps from a directory. -/
def follow (s : Store) (here : List String) : List String → Place
  | [] => .directory
  | step :: steps =>
    let name := here ++ [step]
    if step = "." then s.follow here steps
    else if step = ".." then s.follow (above here) steps
    else if Path.isLongName step then .longName steps.isEmpty
    else if s.isDirectory name then s.follow name steps
    else if s.files.contains name then if steps = [] then .file name else .throughFile
    else if steps = [] then .free name else .nowhere

/-- Where the steps of a path begin. -/
def origin (path : String) : List String := if path.startsWith "/" then ["/"] else []

def place (s : Store) (path : String) : Place :=
  if Path.isLong path then .longName false else s.follow (origin path) (Path.steps path)

/-- The bytes of the file that a path names as it is spelled. -/
def contents (s : Store) (path : String) : Except Fault (List UInt8) :=
  if Path.hasNull path then .error .nullInPath
  else if path = "" then .error (.missing path)
  else match s.place path with
    | .directory => .error (.isDirectory path)
    | .file name =>
      if path.endsWith "/" then .error (.throughFile path)
      else match s.files.find? name with
        | some bytes => .ok bytes
        | none => .error (.missing path)
    | .free _ => .error (.missing path)
    | .nowhere => .error (.missing path)
    | .throughFile => .error (.throughFile path)
    | .longName _ => .error (.nameTooLong path)

/-- The bytes of a regular file. Whether there is one is asked of the path without its empty and `.`
parts. -/
def read (s : Store) (path : String) : Except Fault (List UInt8) :=
  let plain := (Path.ofText path).toText
  if Path.hasNull path then .error (.noFile path)
  else match s.place plain with
    | .file _ => s.contents path
    | .longName _ => .error (.nameTooLong plain)
    | _ => .error (.noFile path)

/-- The file that a path leads to when it is opened for writing. -/
def target (s : Store) (path : String) : Except Fault (List String) :=
  if Path.hasNull path then .error .nullInPath
  else if path = "" then .error (.missing path)
  else match s.place path with
    | .directory => .error (.isDirectory path)
    | .file name | .free name => if path.endsWith "/" then .error (.isDirectory path) else .ok name
    | .nowhere => .error (.missing path)
    | .throughFile => .error (.throughFile path)
    | .longName last =>
      if last && path.endsWith "/" then .error (.isDirectory path) else .error (.nameTooLong path)

/-- Replaces what is in a file. -/
def fill (name : List String) (bytes : List UInt8) : Operation Store Unit :=
  modify fun s => { s with files := s.files.insert name bytes }

/-- Opens a file for writing, which makes it an empty one. -/
def opening (path : String) : Operation Store (List String) := do
  let name ← (← get).target path
  fill name []
  return name

/-- Writes a text that is made when the file is open already, and encoded as a whole. -/
def saving (path : String) (text : Except Fault (List Text.CodePoint)) : Operation Store Unit := do
  let name ← opening path
  let text ← text
  let bytes ← (Text.Utf8.encodeAll text).mapError Fault.unencodable
  fill name bytes

end Store

/-- The builder for the description in a file, read as bytes. -/
def Builder.ofFile (s : Store) (path : String) : Except Fault Builder := do
  ofSource (.bytes (← s.read path))

namespace Automaton

def load (s : Store) (path : String) : Except Fault Automaton := do
  (← Builder.ofFile s path).freeze.2

end Automaton

def WideAutomaton.saving (d : WideAutomaton) (path : String) : Operation Store Unit := Store.saving path d.text

end Acceptor
