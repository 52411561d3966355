import Acceptor.Automaton.Basic

/-!
# Automata from loose values

`Automaton.ofLoose` makes an automaton from rows and final states of any type. It looks at each state
id, then at each edge of that state, the symbol before the target, and at the final states last; the
first value of the wrong type is the fault, even if a rule of automata is broken as well. What is
raised is that fault, if the value in its text can be written (`Automaton.construct`). A list or a
record cannot even be a key, neither of rows (`LooseRows.ofEntries`) nor to look something up.
-/

namespace Acceptor

abbrev LooseRows := Rows Value Value

def checkStateId (v : Value) : Except Fault Int :=
  match v.stateId? with
  | some q => .ok q
  | none => .error (.notStateId v)

def checkSymbol (v : Value) : Except Fault Char :=
  match v.symbol? with
  | some c => .ok c
  | none => .error (.notSymbol v)

theorem isBlank_of_checkSymbol {v : Value} {c : Char} (h : checkSymbol v = .ok c) :
    Text.isBlank c = false := by
  unfold checkSymbol at h
  split at h <;> cases h
  exact Value.isBlank_of_symbol? ‹_›

theorem mem_of_mapM {α β ε : Type} {f : α → Except ε β} {l : List α} {m : List β}
    (h : l.mapM f = .ok m) {b : β} (hb : b ∈ m) : ∃ a ∈ l, f a = .ok b := by
  induction l generalizing m with
  | nil => cases h; cases hb
  | cons a l ih =>
    rw [List.mapM_cons] at h
    cases ha : f a with
    | error e => rw [ha] at h; cases h
    | ok b' =>
      cases hl : l.mapM f with
      | error e => rw [ha, hl] at h; cases h
      | ok m' =>
        rw [ha, hl] at h; cases h
        rcases List.mem_cons.1 hb with rfl | hb
        · exact ⟨a, List.mem_cons_self, ha⟩
        · exact (ih hl hb).imp fun _ h => ⟨List.mem_cons_of_mem _ h.1, h.2⟩

namespace LooseRows

/-- The edges of one row; a later edge with the same symbol replaces an earlier one. -/
def edgesOf (edges : List (Value × Value)) : Except Fault (OrderedMap Value Value) := do
  edges.forM fun edge => edge.1.checkKey
  return .ofList edges

/-- Rows from lists. A later row for the same state replaces an earlier one. -/
def ofEntries (rows : List (Value × List (Value × Value))) : Except Fault LooseRows := do
  let rows ← rows.mapM fun (q, edges) => do
    let edges ← edgesOf edges
    q.checkKey
    return (q, edges)
  return .ofList rows

/-- The first rule that is broken. A list or record is in no map, and where it is the first value that
is not found, the fault is that it was looked up at all. -/
def failure? (rows : LooseRows) (finals alphabet : List Value) : Except Fault (Option Failure) :=
  let found := Acceptor.failure? (Value.int Automaton.initial) rows finals alphabet
  let lost := match found with
    | some .incompleteTransitions =>
      (rows.values.flatMap fun (row : OrderedMap Value Value) =>
        alphabet.filter fun c => !row.contains c).head?
    | some .danglingTarget => rows.targets.find? fun t => !rows.contains t
    | _ => none
  match lost with
  | some v => do
    v.checkKey
    return found
  | none => .ok found

/-- An edge, its symbol looked at before its target. -/
def checkEdge (edge : Value × Value) : Except Fault (Char × Int) := do
  let c ← checkSymbol edge.1
  let t ← checkStateId edge.2
  return (c, t)

def checkRow (row : Value × OrderedMap Value Value) :
    Except Fault (Int × OrderedMap Char Int) := do
  let q ← checkStateId row.1
  let edges ← row.2.entries.mapM checkEdge
  return (q, .ofList edges)

def check (rows : LooseRows) : Except Fault (Rows Int Char) := do
  let typed ← rows.entries.mapM checkRow
  return .ofList typed

theorem isBlank_of_checkEdge {edge : Value × Value} {e : Char × Int} (h : checkEdge edge = .ok e) :
    Text.isBlank e.1 = false := by
  unfold checkEdge at h
  cases hc : checkSymbol edge.1 with
  | error f => rw [hc] at h; cases h
  | ok c =>
    cases ht : checkStateId edge.2 with
    | error f => rw [hc, ht] at h; cases h
    | ok t => rw [hc, ht] at h; cases h; exact isBlank_of_checkSymbol hc

theorem isBlank_of_checkRow {row : Value × OrderedMap Value Value} {r : Int × OrderedMap Char Int}
    (h : checkRow row = .ok r) {c : Char} (hc : c ∈ r.2.keys) : Text.isBlank c = false := by
  unfold checkRow at h
  cases hq : checkStateId row.1 with
  | error f => rw [hq] at h; cases h
  | ok q =>
    cases he : row.2.entries.mapM checkEdge with
    | error f => rw [hq, he] at h; cases h
    | ok edges =>
      rw [hq, he] at h; cases h
      obtain ⟨e, hm, rfl⟩ := OrderedMap.mem_of_mem_keys_ofList hc
      exact isBlank_of_checkEdge (mem_of_mapM he hm).choose_spec.2

theorem isBlank_of_check {rows : LooseRows} {typed : Rows Int Char} (h : rows.check = .ok typed) :
    ∀ c ∈ typed.symbols, Text.isBlank c = false := by
  intro c hc
  unfold check at h
  cases hr : rows.entries.mapM checkRow with
  | error f => rw [hr] at h; cases h
  | ok rs =>
    rw [hr] at h; cases h
    obtain ⟨row, hrow, hc⟩ := List.mem_flatMap.1 hc
    obtain ⟨r, hm, rfl⟩ := OrderedMap.mem_of_mem_values_ofList hrow
    exact isBlank_of_checkRow (mem_of_mapM hr hm).choose_spec.2 hc

end LooseRows

namespace Automaton

/-- The target of an edge. Without a row for the state the symbol is not looked at. -/
def lookUp (d : Automaton) (state symbol : Value) : Except Fault (Option Int) := do
  state.checkKey
  match state.integer?.bind d.rows.find? with
  | none => return none
  | some row =>
    symbol.checkKey
    return symbol.symbol?.bind row.find?

def ofLoose (rows : LooseRows) (finals : List Value) : Except Fault Automaton :=
  match h : rows.check with
  | .error fault => .error fault
  | .ok typed => do
    let finals ← finals.mapM checkStateId
    (ofRows typed finals (LooseRows.isBlank_of_check h)).mapError .invalid

/-- What making an automaton comes to where `room` values can stand in each other: the text of a fault shows a
value, which is written when the fault is raised. -/
def construct (room : Nat) (rows : LooseRows) (finals : List Value) : Except Fault Automaton :=
  (ofLoose rows finals).mapError (Fault.raised room)

end Automaton

end Acceptor
