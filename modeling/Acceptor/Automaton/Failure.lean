import Acceptor.OrderedMap

/-!
# What makes states and edges an automaton

The initial state has a row, some state is final, every row has an edge for every symbol of the
alphabet, and every edge leads to a state with a row (`Complete`). `failure?` checks the four rules
in this order and names the first that is broken; `failure?_eq_none_iff` says that it finds none
exactly when all four hold.
-/

namespace Acceptor

inductive Failure where
  | missingInitialState
  | noFinalStates
  | incompleteTransitions
  | danglingTarget
deriving DecidableEq, Repr

namespace Failure

/-- All failures, in the order of the checks. -/
def all : List Failure := [.missingInitialState, .noFinalStates, .incompleteTransitions, .danglingTarget]

def reason : Failure → String
  | .missingInitialState => "state 0 has no transitions"
  | .noFinalStates => "no final states declared"
  | .incompleteTransitions => "a state lacks a transition for some symbol"
  | .danglingTarget => "a transition targets an undeclared state"

end Failure

variable {κ σ φ : Type} [BEq κ] [BEq σ]

/-- For each state its outgoing edges: for each symbol the target. -/
abbrev Rows (κ σ : Type) [BEq κ] [BEq σ] := OrderedMap κ (OrderedMap σ κ)

/-- The symbols on the edges, row by row, with repetitions. -/
def Rows.symbols (rows : Rows κ σ) : List σ := rows.values.flatMap OrderedMap.keys

/-- The targets of the edges, row by row, with repetitions. -/
def Rows.targets (rows : Rows κ σ) : List κ := rows.values.flatMap OrderedMap.values

/-- The four rules, for a given initial state and alphabet. -/
structure Complete (initial : κ) (rows : Rows κ σ) (finals : List φ) (alphabet : List σ) : Prop where
  initial : rows.contains initial = true
  final : finals ≠ []
  total : ∀ row ∈ rows.values, ∀ c ∈ alphabet, row.contains c = true
  closed : ∀ t ∈ rows.targets, rows.contains t = true

/-- The first rule that is broken. -/
def failure? (initial : κ) (rows : Rows κ σ) (finals : List φ) (alphabet : List σ) :
    Option Failure :=
  if !rows.contains initial then some .missingInitialState
  else if finals.isEmpty then some .noFinalStates
  else if rows.values.any fun row => alphabet.any fun c => !row.contains c then
    some .incompleteTransitions
  else if rows.targets.any fun t => !rows.contains t then some .danglingTarget
  else none

theorem failure?_eq_none_iff {initial : κ} {rows : Rows κ σ} {finals : List φ} {alphabet : List σ} :
    failure? initial rows finals alphabet = none ↔ Complete initial rows finals alphabet := by
  unfold failure?
  constructor
  · intro h
    split at h <;> try simp at h
    next h₁ =>
    split at h <;> try simp at h
    next h₂ =>
    split at h <;> try simp at h
    next h₃ =>
    exact ⟨by simpa using h₁, by simpa using h₂, by simpa using h₃, by simpa using h⟩
  · rintro ⟨h₁, h₂, h₃, h₄⟩
    rw [if_neg (by simpa using h₁), if_neg (by simpa using h₂), if_neg (by simpa using h₃),
      if_neg (by simpa using h₄)]

end Acceptor
