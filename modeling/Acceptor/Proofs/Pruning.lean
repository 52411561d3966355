import Acceptor.Proofs.Loose
import Acceptor.Proofs.Reachability

/-!
# Leaving out the states that no word reaches

No edge leads out of the reachable states (`closed_reachable`). A run that starts among states with this property
stays there (`visitedFrom_of_closed`), and it is the same in every automaton that has the same edges there
(`runFrom_eq_of_closed`). So the rows of the reachable states (`reachedRows`) are complete, and the automaton that
they make does the same to every word and has no state left that can be left out (`ofLoose_reachedRows`).
-/

namespace Acceptor

namespace Automaton

variable {d e : Automaton} {q t : Int} {c : Char} {S : Int → Prop}

/-- The states that a run from `q` passes through, beginning with `q`. -/
def visitedFrom (d : Automaton) (q : Int) : List Char → List Int
  | [] => [q]
  | c :: w =>
    match d.target? q c with
    | none => [q]
    | some t => q :: d.visitedFrom t w

def visited (d : Automaton) (w : String) : List Int := d.visitedFrom initial w.toList

/-- The state visited after so many characters is the one that these characters lead to. -/
theorem getElem?_visitedFrom (d : Automaton) (q : Int) {w : List Char} {n : Nat} (hn : n ≤ w.length) :
    (d.visitedFrom q w)[n]? = d.runFrom q (w.take n) := by
  induction w generalizing q n with
  | nil =>
    obtain rfl : n = 0 := by simpa using hn
    rfl
  | cons c w ih =>
    rw [visitedFrom]
    cases n with
    | zero => cases d.target? q c <;> rfl
    | succ n =>
      rw [List.take_succ_cons, runFrom]
      cases d.target? q c with
      | none => rfl
      | some t => exact ih t (Nat.le_of_succ_le_succ hn)

/-- No edge leads from a state in `S` to one outside. -/
def Closed (d : Automaton) (S : Int → Prop) : Prop := ∀ q c t, S q → d.target? q c = some t → S t

theorem visitedFrom_of_closed (hS : d.Closed S) (hq : S q) (w : List Char) : ∀ t ∈ d.visitedFrom q w, S t := by
  induction w generalizing q with
  | nil => intro t ht; rw [List.mem_singleton.1 ht]; exact hq
  | cons c w ih =>
    intro t ht
    rw [visitedFrom] at ht
    split at ht
    · rw [List.mem_singleton.1 ht]; exact hq
    · next r hr =>
      rcases List.mem_cons.1 ht with rfl | ht
      · exact hq
      · exact ih (hS q c r hq hr) t ht

/-- Automata with the same edges from the states in `S` run in step there. -/
theorem runFrom_eq_of_closed (hS : d.Closed S) (he : ∀ q c, S q → e.target? q c = d.target? q c) (hq : S q)
    (w : List Char) : e.runFrom q w = d.runFrom q w := by
  induction w generalizing q with
  | nil => rfl
  | cons c w ih =>
    rw [runFrom, runFrom, he q c hq]
    cases ht : d.target? q c with
    | none => rfl
    | some t => exact ih (hS q c t hq ht)

theorem initial_mem_reachable (d : Automaton) : initial ∈ d.reachable := mem_reachable.2 ⟨[], rfl⟩

theorem closed_reachable (d : Automaton) : d.Closed (· ∈ d.reachable) := by
  intro q c t hq ht
  obtain ⟨w, hw⟩ := mem_reachable.1 hq
  exact mem_reachable.2 ⟨w ++ [c], runFrom_concat hw ht⟩

theorem contains_of_mem_reachable (hq : q ∈ d.reachable) : d.rows.contains q = true := by
  obtain ⟨w, hw⟩ := mem_reachable.1 hq
  exact contains_of_runFrom d.contains_initial hw

/-- The rows of the states that some word leads to. -/
def reachedRows (d : Automaton) : Rows Int Char := d.rows.restrict d.reachable.contains

theorem contains_reachedRows : d.reachedRows.contains q = true ↔ q ∈ d.reachable := by
  rw [reachedRows, OrderedMap.contains_restrict, Bool.and_eq_true_iff, List.contains_iff_mem]
  exact and_iff_left_of_imp contains_of_mem_reachable

theorem target?_reachedRows (d : Automaton) (q : Int) (c : Char) :
    d.reachedRows.target? q c = if q ∈ d.reachable then d.target? q c else none := by
  simp only [Rows.target?, reachedRows, OrderedMap.find?_restrict, List.contains_iff_mem]
  split <;> rfl

theorem target?_reachedRows_of_mem (hq : q ∈ d.reachable) (c : Char) :
    d.reachedRows.target? q c = d.target? q c := by rw [target?_reachedRows, if_pos hq]

theorem target?_reachedRows_iff :
    d.reachedRows.target? q c = some t ↔ q ∈ d.reachable ∧ d.target? q c = some t := by
  rw [target?_reachedRows, Option.ite_none_right_eq_some]

/-- No symbol is lost, as the initial state has an edge for each of them. -/
theorem mem_symbols_reachedRows : c ∈ d.reachedRows.symbols ↔ c ∈ d.alphabet := by
  rw [Rows.mem_symbols_iff, mem_alphabet]
  simp only [target?_reachedRows_iff]
  constructor
  · rintro ⟨q, t, -, ht⟩; exact ⟨q, t, ht⟩
  · intro hc
    obtain ⟨t, ht⟩ := exists_target? d.contains_initial (mem_alphabet.2 hc)
    exact ⟨initial, t, d.initial_mem_reachable, ht⟩

theorem complete_reachedRows (d : Automaton) :
    Complete initial d.reachedRows d.finals d.reachedRows.symbols := by
  refine complete_iff.2 ⟨contains_reachedRows.2 d.initial_mem_reachable, d.finals_ne_nil, fun q c hq hc => ?_,
    fun q c t ht => ?_⟩
  · have hreached := contains_reachedRows.1 hq
    obtain ⟨t, ht⟩ := exists_target? (contains_of_mem_reachable hreached) (mem_symbols_reachedRows.1 hc)
    exact ⟨t, target?_reachedRows_iff.2 ⟨hreached, ht⟩⟩
  · obtain ⟨hq, ht⟩ := target?_reachedRows_iff.1 ht
    exact contains_reachedRows.2 (d.closed_reachable q c t hq ht)

theorem exists_ofLoose_reachedRows (d : Automaton) :
    ∃ e, ofLoose d.reachedRows.loose (d.finals.map Value.int) = .ok e ∧
      e.rows = d.reachedRows ∧ e.finals = d.finals := by
  have hblank : ∀ c ∈ d.reachedRows.symbols, Text.isBlank c = false := fun c hc =>
    isBlank_of_mem_alphabet (mem_symbols_reachedRows.1 hc)
  let e : Automaton := ⟨d.reachedRows, d.finals, d.complete_reachedRows, d.finals_ascending, hblank⟩
  have hfinals : d.finals = ascending d.finals := (ascending_eq d.finals_ascending fun _ => Iff.rfl).symm
  exact ⟨e, ofLoose_eq_ok_iff.2 ⟨rfl, d.finals, rfl, hfinals⟩, rfl, rfl⟩

section

variable (hrows : e.rows = d.reachedRows)
include hrows

theorem states_of_reachedRows : e.states = d.reachable :=
  ascending_eq (pairwise_ascending _) fun q => by
    rw [OrderedMap.mem_keys_iff, hrows]; exact contains_reachedRows

theorem alphabet_of_reachedRows : e.alphabet = d.alphabet :=
  ascending_eq (pairwise_ascending _) fun c => by rw [hrows]; exact mem_symbols_reachedRows

theorem runFrom_of_reachedRows (w : List Char) : e.runFrom initial w = d.runFrom initial w := by
  refine runFrom_eq_of_closed d.closed_reachable (fun q c hq => ?_) d.initial_mem_reachable w
  show e.rows.target? q c = _
  rw [hrows]; exact target?_reachedRows_of_mem hq c

theorem reachable_of_reachedRows : e.reachable = d.reachable :=
  (pairwise_ascending _).eq_of_mem_iff (pairwise_ascending _) fun {q} => by
    show q ∈ e.reachable ↔ q ∈ d.reachable
    simp only [mem_reachable, runFrom_of_reachedRows hrows]

end

/-- The reachable states alone make an automaton that runs as before and in which every state is reachable; the
others are visited on no word. -/
theorem ofLoose_reachedRows (d : Automaton) :
    (∃ e, ofLoose d.reachedRows.loose (d.finals.map Value.int) = .ok e ∧
      e.states = d.reachable ∧ e.finals = d.finals ∧ e.alphabet = d.alphabet ∧
      (∀ w, e.run w = d.run w) ∧ (∀ w, e.accepts w = d.accepts w) ∧
      ∀ q ∈ e.states, q ∈ e.reachable) ∧
    ∀ w : String,
      (∀ n ≤ w.toList.length, (d.visited w)[n]? = d.runFrom initial (w.toList.take n)) ∧
      ∀ q ∈ d.visited w, q ∉ d.unreachable := by
  constructor
  · obtain ⟨e, he, hrows, hfinals⟩ := d.exists_ofLoose_reachedRows
    have hrun : ∀ w, e.run w = d.run w := fun w => runFrom_of_reachedRows hrows w.toList
    have hstates := states_of_reachedRows hrows
    refine ⟨e, he, hstates, hfinals, alphabet_of_reachedRows hrows, hrun, fun w => ?_, fun q hq => ?_⟩
    · rw [accepts, accepts, hrun, hfinals]
    · rw [reachable_of_reachedRows hrows, ← hstates]; exact hq
  · intro w
    refine ⟨fun n hn => d.getElem?_visitedFrom initial hn, fun q hq hunreachable => ?_⟩
    have hreached := visitedFrom_of_closed d.closed_reachable d.initial_mem_reachable w.toList q hq
    simp [unreachable, List.removeAll, hreached] at hunreachable

/-- State 2 is not visited: its row goes, and nothing else changes. -/
theorem ofLoose_reachedRows_of_cycle :
    ∃ d e : Automaton, d.states = [0, 1, 2] ∧ d.unreachable = [2] ∧
      ofLoose d.reachedRows.loose (d.finals.map Value.int) = .ok e ∧ e.states = [0, 1] ∧ e.finals = [1, 2] ∧
      0 ∈ e.reachable ∧ e.run "aba" = d.run "aba" ∧ e.accepts "ab" = d.accepts "ab" ∧
      d.visited "acb" = [0, 1] ∧ (d.visited "acb")[1]? = d.runFrom initial ['a'] ∧
      (d.visited "acb")[2]? = d.runFrom initial ['a', 'c'] ∧ 1 ∉ d.unreachable := by
  let d : Automaton := ⟨.ofList [(0, .ofList [('a', 1), ('b', 1)]), (1, .ofList [('a', 0), ('b', 1)]),
    (2, .ofList [('a', 0), ('b', 2)])], [1, 2], failure?_eq_none_iff.1 rfl, by decide, isBlank_of_any rfl⟩
  have hreachable : d.reachable = [0, 1] := by decide
  have hunreachable : d.unreachable = [2] := by rw [unreachable, hreachable]; decide
  obtain ⟨⟨e, he, hstates, hfinals, -, hrun, haccepts, hreach⟩, hvisited⟩ := ofLoose_reachedRows d
  rw [hreachable] at hstates
  obtain ⟨hprefixes, hnever⟩ := hvisited "acb"
  exact ⟨d, e, rfl, hunreachable, he, hstates, hfinals, hreach 0 (by rw [hstates]; decide), hrun "aba",
    haccepts "ab", rfl, hprefixes 1 (by decide), hprefixes 2 (by decide), hnever 1 (by decide)⟩

end Automaton

end Acceptor
