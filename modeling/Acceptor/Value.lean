import Acceptor.Text.Quoted
import Acceptor.Ascending
import Acceptor.Binary64
import Acceptor.Numeral

/-!
# Loose values

A description need not be well typed: state ids, symbols and targets may come as any `Value` that
data files hold. A state id is an `int` and nothing else; a symbol is a `text` of one character that
is not blank. As keys, values are compared by what they stand for (`Value.atoms`), so `true`, `1` and
`1.0` are one key, although only the `int` is a state id. Messages show a value by its `literal`, unless
it meets a limit of what can be written (`Value.limit?`).
-/

namespace Acceptor

inductive Value where
  | null
  | bool (b : Bool)
  | int (n : Int)
  | float (x : Binary64)
  | text (s : String)
  | list (items : List Value)
  | record (fields : List (String × Value))

namespace Value

instance : Inhabited Value := ⟨.null⟩

/-- The symbol `c` as a value. -/
def char (c : Char) : Value := .text (String.singleton c)

/-- One piece of what a value stands for. -/
inductive Atom where
  | null
  | integer (n : Int)
  | fraction (x : Binary64)
  | text (s : String)
  | list (size : Nat)
  | record (size : Nat)
deriving DecidableEq

/-- The integer that a number or truth value stands for. -/
def integer? : Value → Option Int
  | .bool b => some (if b then 1 else 0)
  | .int n => some n
  | .float x => x.integer?
  | _ => none

mutual

/-- What the value stands for, as a list of pieces: truth values and whole floats are integers, and the
fields of a record have no order. -/
def atoms : Value → List Atom
  | .null => [.null]
  | .bool b => [.integer (if b then 1 else 0)]
  | .int n => [.integer n]
  | .float x => match x.integer? with
    | some n => [.integer n]
    | none => [.fraction x]
  | .text s => [.text s]
  | .list items => .list items.length :: atomsOfItems items
  | .record fields =>
    let parts := atomsOfFields fields
    .record fields.length :: (ascending (parts.map (·.1))).flatMap fun k =>
      (parts.find? fun p => p.1 == k).elim [] fun p => .text p.1 :: p.2

def atomsOfItems : List Value → List Atom
  | [] => []
  | v :: items => v.atoms ++ atomsOfItems items

def atomsOfFields : List (String × Value) → List (String × List Atom)
  | [] => []
  | (k, v) :: fields => (k, v.atoms) :: atomsOfFields fields

end

/-- The two values stand for the same. -/
def same : Value → Value → Bool
  | .int m, .int n => m == n
  | .text s, .text t => s == t
  | v, w => v.atoms == w.atoms

theorem same_eq (v w : Value) : same v w = (v.atoms == w.atoms) := by
  unfold same; split
  · rw [Bool.eq_iff_iff]; simp [atoms]
  · rw [Bool.eq_iff_iff]; simp [atoms]
  · rfl

instance : BEq Value := ⟨same⟩

theorem beq_iff {v w : Value} : (v == w) = true ↔ v.atoms = w.atoms := by
  change same v w = true ↔ _; rw [same_eq]; exact beq_iff_eq

instance : EquivBEq Value where
  rfl := beq_iff.2 rfl
  symm h := beq_iff.2 (beq_iff.1 h).symm
  trans h k := beq_iff.2 ((beq_iff.1 h).trans (beq_iff.1 k))

theorem int_beq_int (m n : Int) : (Value.int m == Value.int n) = (m == n) := by
  rw [Bool.eq_iff_iff, beq_iff, beq_iff_eq]; simp [atoms]

mutual

/-- The value as messages show it, unless a `Limit` keeps it from being written. -/
def literal : Value → String
  | .null => "None"
  | .bool true => "True"
  | .bool false => "False"
  | .int n => Numeral.toText n
  | .float x => x.toText
  | .text s => Text.quoted s
  | .list items => "[" ++ ", ".intercalate (literalItems items) ++ "]"
  | .record fields => "\x7b" ++ ", ".intercalate (literalFields fields) ++ "\x7d"

def literalItems : List Value → List String
  | [] => []
  | v :: items => v.literal :: literalItems items

def literalFields : List (String × Value) → List String
  | [] => []
  | (k, v) :: fields => (Text.quoted k ++ ": " ++ v.literal) :: literalFields fields

end

/-- What keeps a value from being written. -/
inductive Limit where
  /-- An integer in it is not `Numeral.Short`. -/
  | digits
  /-- Too many lists and records stand in each other. -/
  | nesting
deriving DecidableEq, Repr

def Limit.message : Limit → String
  | .digits =>
    "Exceeds the limit (" ++ Numeral.toText Numeral.maxDigits ++
      " digits) for integer string conversion; use sys.set_int_max_str_digits() to increase the limit"
  | .nesting => "maximum recursion depth exceeded while getting the repr of an object"

mutual

/-- The first limit that is met when the value is written where `room` values can stand in each other. -/
def limit? : Value → (room : Nat) → Option Limit
  | _, 0 => some .nesting
  | .int n, _ + 1 => if Numeral.Short n then none else some .digits
  | .list items, room + 1 => limitOfItems? items room
  | .record fields, room + 1 => limitOfFields? fields room
  | _, _ + 1 => none

def limitOfItems? : List Value → Nat → Option Limit
  | [], _ => none
  | v :: items, room => (v.limit? room).or (limitOfItems? items room)

def limitOfFields? : List (String × Value) → Nat → Option Limit
  | [], _ => none
  | (_, v) :: fields, room => (v.limit? room).or (limitOfFields? fields room)

end

/-- How messages name the type of the value. -/
def typeName : Value → String
  | .null => "NoneType"
  | .bool _ => "bool"
  | .int _ => "int"
  | .float _ => "float"
  | .text _ => "str"
  | .list _ => "list"
  | .record _ => "dict"

/-- Whether the value can be a key: lists and records cannot. -/
def isKey : Value → Bool
  | .list _ => false
  | .record _ => false
  | _ => true

/-- The integer of a well-typed state id. -/
def stateId? : Value → Option Int
  | .int n => some n
  | _ => none

/-- The character of a well-typed symbol. -/
def symbol? : Value → Option Char
  | .text s => match s.toList with
    | [c] => if Text.isBlank c then none else some c
    | _ => none
  | _ => none

theorem isBlank_of_symbol? {v : Value} {c : Char} (h : v.symbol? = some c) :
    Text.isBlank c = false := by
  unfold symbol? at h
  split at h <;> try cases h
  split at h <;> try cases h
  split at h <;> cases h
  exact Bool.eq_false_iff.2 ‹_›

end Value

end Acceptor
