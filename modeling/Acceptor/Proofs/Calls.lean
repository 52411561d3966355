import Acceptor.Proofs.Reading

/-!
# Calls on a builder

`Call.op` is what a call does, and `Builder.call` the builder that it leaves behind, with its reply. An addition that is
refused leaves everything as it was (`call_addFinal_error`, `call_addTransition_error`), as the accessors do.
`Reached b`: the builder comes from the empty one or from a description that was read, by calls of any
kind, refused ones included. Every call keeps what such a builder holds well typed (`Holds.call`), so
every builder that is reached holds some rows (`Reached.holds`).
-/

namespace Acceptor

namespace Builder

/-- A call on a builder. -/
inductive Call where
  | addFinal (id : Value)
  | addTransition (source symbol target : Value)
  | finals
  | alphabet
  | stateIds
  | state (id : Value)
  | check
  | freeze
  | build

/-- What a call that is not refused gives back. -/
inductive Reply where
  | done
  | ids (l : List Int)
  | symbols (l : List Char)
  | state (s : Option State)
  | prediction (f : Option Failure)
  | automaton (d : Automaton)
  | attempt (d : Option Automaton)

/-- What the call does, step by step. -/
def Call.op : Call → Operation Builder Reply
  | .addFinal id => do
    addingFinal id
    return .done
  | .addTransition source symbol target => do
    addingTransition source symbol target
    return .done
  | .finals => return .ids (← get).finals
  | .alphabet => return .symbols (← get).alphabet
  | .stateIds => return .ids (ascending (← get).states.keys)
  | .state id => do
    let found ← (← get).state? id
    return .state (found.map (·.2))
  | .check => do
    let found ← (← get).check
    return .prediction found
  | .freeze => .automaton <$> freezing
  | .build => .attempt <$> building

/-- The builder after a call, and the reply. -/
def call (b : Builder) (c : Call) : Builder × Except Fault Reply := c.op.perform b

/-- The builder after some calls. -/
def run (b : Builder) (calls : List Call) : Builder := calls.foldl (fun b c => (b.call c).1) b

/-- The builder comes from the empty one or from reading lines, by calls of any kind. -/
inductive Reached : Builder → Prop
  | empty : Reached .empty
  | read {lines : List Text.RawLine} {b : Builder} (h : ofLines lines = .ok b) : Reached b
  | call {b : Builder} (h : Reached b) (c : Call) : Reached (b.call c).1

variable {b : Builder}

theorem Reached.run (h : Reached b) (calls : List Call) : Reached (b.run calls) := by
  induction calls generalizing b with
  | nil => exact h
  | cons c calls ih => exact ih (h.call c)

theorem freeze_fst (b : Builder) : b.freeze.1 = { b with spent := true } := by
  cases hs : b.spent with
  | true => rw [freeze_of_spent hs, ← hs]
  | false => rw [freeze_of_unspent hs]

/-! ### One call -/

theorem call_addFinal {b' : Builder} {id : Value} (h : b.addFinal id = .ok b') :
    b.call (.addFinal id) = (b', .ok .done) := by
  obtain ⟨_, h⟩ := Operation.outcome_eq_ok_iff.1 h
  exact Operation.perform_bind_of_ok h

theorem call_addFinal_error {id : Value} {fault : Fault} (h : b.addFinal id = .error fault) :
    b.call (.addFinal id) = (b, .error fault) :=
  Operation.perform_bind_of_error ((atomic_addingFinal id).perform_eq h)

theorem call_addTransition {b' : Builder} {source symbol target : Value}
    (h : b.addTransition source symbol target = .ok b') :
    b.call (.addTransition source symbol target) = (b', .ok .done) := by
  obtain ⟨_, h⟩ := Operation.outcome_eq_ok_iff.1 h
  exact Operation.perform_bind_of_ok h

theorem call_addTransition_error {source symbol target : Value} {fault : Fault}
    (h : b.addTransition source symbol target = .error fault) :
    b.call (.addTransition source symbol target) = (b, .error fault) :=
  Operation.perform_bind_of_error ((atomic_addingTransition source symbol target).perform_eq h)

theorem call_state (b : Builder) (id : Value) :
    b.call (.state id) = (b, (b.state? id).map fun s => .state (s.map (·.2))) :=
  Operation.perform_check_map _ _ b

theorem call_check (b : Builder) : b.call .check = (b, b.check.map .prediction) :=
  Operation.perform_check_map _ _ b

theorem call_freeze (b : Builder) : b.call .freeze = (b.freeze.1, b.freeze.2.map .automaton) :=
  Operation.perform_map _ _ b

theorem call_build (b : Builder) : b.call .build = (b.freeze.1, (attempted b.freeze.2).map .attempt) := by
  have hcall : b.call .build = (b.build.1, b.build.2.map .attempt) := Operation.perform_map _ _ b
  rw [hcall, build_eq]

theorem Holds.call {rows : Rows Int Char} (h : Holds b rows) (c : Call) :
    ∃ rows', Holds (b.call c).1 rows' := by
  -- only a transition that is not refused changes what is held
  cases c with
  | addFinal id =>
    cases hb : b.addFinal id with
    | error fault => rw [call_addFinal_error hb]; exact ⟨rows, h⟩
    | ok b' =>
      rw [call_addFinal hb]
      obtain ⟨-, q, -, rfl⟩ := addFinal_eq_ok_iff.1 hb
      exact ⟨rows, h.congr rfl rfl⟩
  | addTransition source symbol target =>
    cases hb : b.addTransition source symbol target with
    | error fault => rw [call_addTransition_error hb]; exact ⟨rows, h⟩
    | ok b' =>
      rw [call_addTransition hb]
      obtain ⟨-, t, -, -, ht, -, rfl⟩ := addTransition_eq_ok_iff.1 hb
      exact ⟨rows.addTransition t, h.put ht⟩
  | finals | alphabet | stateIds => exact ⟨rows, h⟩
  | state id => rw [call_state]; exact ⟨rows, h⟩
  | check => rw [call_check]; exact ⟨rows, h⟩
  | freeze =>
    rw [call_freeze, freeze_fst]
    exact ⟨rows, h.congr rfl rfl⟩
  | build =>
    rw [call_build, freeze_fst]
    exact ⟨rows, h.congr rfl rfl⟩

theorem Reached.holds (h : Reached b) : ∃ rows, Holds b rows := by
  induction h with
  | empty => exact ⟨∅, Holds.empty⟩
  | read h =>
    obtain ⟨header, rest, ids, ts, -, -, hts, rfl⟩ := ofLines_eq_ok_iff.1 h
    exact ⟨_, holds_collected ids (isBlank_of_reads (List.forall₂_map_left_iff.2 hts))⟩
  | call _ c ih =>
    obtain ⟨rows, h⟩ := ih
    exact h.call c

end Builder

end Acceptor
