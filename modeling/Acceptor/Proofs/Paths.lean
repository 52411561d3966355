import Acceptor.Proofs.Automaton

/-!
# Runs are paths

`d.Path q w t`: the edges in the rows lead from `q` to `t` along `w`. A run ends where the only path along the
word leads (`path_iff`). `walk` looks up the row of each state on its way and has no answer where there is none;
from a state with a row it never comes to that (`walk_eq`), as every target has a row. A word without a foreign
character therefore leads somewhere (`exists_runFrom`), and `run_follows_path` puts this together.
-/

namespace Acceptor.Automaton

variable {d e : Automaton} {q t : Int} {c : Char} {w : List Char}

/-- The row of `q` has the edge for `c` to `t`. -/
def Edge (d : Automaton) (q : Int) (c : Char) (t : Int) : Prop :=
  ∃ row, (q, row) ∈ d.rows.entries ∧ (c, t) ∈ row.entries

inductive Path (d : Automaton) : Int → List Char → Int → Prop
  | nil (q : Int) : Path d q [] q
  | cons {q r t : Int} {c : Char} {w : List Char} (he : d.Edge q c r) (h : Path d r w t) :
    Path d q (c :: w) t

/-- Like `runFrom`, but a state whose row is looked up and not there is an error. -/
def walk (d : Automaton) (q : Int) : List Char → Except Int (Option Int)
  | [] => .ok (some q)
  | c :: w =>
    match d.rows.find? q with
    | none => .error q
    | some row =>
      match row.find? c with
      | none => .ok none
      | some t => d.walk t w

theorem edge_iff : d.Edge q c t ↔ d.target? q c = some t := by
  simp only [Edge, OrderedMap.mem_entries_iff, target?, Option.bind_eq_some_iff]

theorem path_iff : d.Path q w t ↔ d.runFrom q w = some t := by
  constructor
  · intro h
    induction h with
    | nil q => rfl
    | cons he _ ih => rw [runFrom, edge_iff.1 he, Option.bind_some, ih]
  · intro h
    induction w generalizing q with
    | nil => cases h; exact .nil _
    | cons c w ih =>
      obtain ⟨r, hr, h⟩ := Option.bind_eq_some_iff.1 h
      exact .cons (edge_iff.2 hr) (ih h)

theorem walk_eq (hq : d.rows.contains q = true) (w : List Char) : d.walk q w = .ok (d.runFrom q w) := by
  induction w generalizing q with
  | nil => rfl
  | cons c w ih =>
    obtain ⟨row, hrow⟩ := OrderedMap.contains_iff.1 hq
    have htarget : d.target? q c = row.find? c := by rw [target?, hrow]; rfl
    simp only [walk, runFrom, hrow, htarget]
    cases ht : row.find? c with
    | none => rfl
    | some t =>
      rw [ht] at htarget
      exact ih (contains_of_target? htarget)

theorem exists_runFrom (hq : d.rows.contains q = true) (hw : ∀ c ∈ w, c ∈ d.alphabet) :
    ∃ t, d.runFrom q w = some t := by
  induction w generalizing q with
  | nil => exact ⟨q, rfl⟩
  | cons c w ih =>
    obtain ⟨r, hr⟩ := exists_target? hq (hw c List.mem_cons_self)
    obtain ⟨t, ht⟩ := ih (contains_of_target? hr) fun b hb => hw b (List.mem_cons_of_mem _ hb)
    exact ⟨t, by rw [runFrom, hr, Option.bind_some, ht]⟩

theorem runFrom_eq_none_iff (hq : d.rows.contains q = true) :
    d.runFrom q w = none ↔ ∃ c ∈ w, c ∉ d.alphabet := by
  constructor
  · intro h
    by_contra hw
    push Not at hw
    obtain ⟨t, ht⟩ := exists_runFrom hq hw
    rw [h] at ht; cases ht
  · rintro ⟨c, hc, halphabet⟩; exact runFrom_eq_none hc halphabet

theorem run_eq_some_iff {w : String} : d.run w = some q ↔ d.Path 0 w.toList q := path_iff.symm

theorem run_append (d : Automaton) (u v : String) :
    d.run (u ++ v) = (d.run u).bind fun q => d.runFrom q v.toList := by
  rw [run, String.toList_append, runFrom_append]; rfl

theorem accepts_iff_path {w : String} : d.accepts w = true ↔ ∃ q ∈ d.finals, d.Path 0 w.toList q := by
  rw [accepts_iff]
  simp only [path_iff, and_comm]; rfl

/-- Only the final states that have a row count. -/
theorem accepts_congr (hedge : ∀ q c t, e.Edge q c t ↔ d.Edge q c t)
    (hfinals : ∀ q ∈ d.states, (q ∈ e.finals ↔ q ∈ d.finals)) (w : String) : e.accepts w = d.accepts w := by
  have htarget : e.target? = d.target? := by
    funext q c; ext t
    rw [← edge_iff, ← edge_iff, hedge]
  rw [Bool.eq_iff_iff, accepts_iff, accepts_iff, runFrom_eq_foldlM, runFrom_eq_foldlM, htarget]
  refine exists_congr fun q => and_congr_right fun hq => hfinals q ?_
  rw [← runFrom_eq_foldlM] at hq
  exact mem_states.2 (contains_of_runFrom d.contains_initial hq)

/-- A run has an answer on every word: the state that the one path leads to, or none on a foreign character. -/
theorem run_follows_path (d : Automaton) :
    (∀ w, d.walk 0 w.toList = .ok (d.run w)) ∧
    (∀ w, d.run w = none ↔ ∃ c ∈ w.toList, c ∉ d.alphabet) ∧
    (∀ w, (∀ c ∈ w.toList, c ∈ d.alphabet) →
      ∃ q ∈ d.states, d.run w = some q ∧ ∀ r, d.Path 0 w.toList r ↔ r = q) ∧
    (∀ w, d.accepts w = true ↔ ∃ q ∈ d.finals, d.Path 0 w.toList q) ∧
    (∀ e : Automaton, (∀ q c t, e.Edge q c t ↔ d.Edge q c t) →
      (∀ q ∈ d.states, (q ∈ e.finals ↔ q ∈ d.finals)) → ∀ w, e.accepts w = d.accepts w) ∧
    (∀ u u' v, d.run u = d.run u' → d.run (u ++ v) = d.run (u' ++ v)) ∧
    ∀ u v, d.run u = none → d.run (u ++ v) = none := by
  have hinitial := d.contains_initial
  refine ⟨fun w => walk_eq hinitial w.toList, fun w => runFrom_eq_none_iff hinitial, fun w hw => ?_,
    fun w => accepts_iff_path, fun e => accepts_congr, fun u u' v h => ?_, fun u v h => ?_⟩
  · obtain ⟨q, hq⟩ := exists_runFrom hinitial hw
    have hrun : d.run w = some q := hq
    refine ⟨q, mem_states.2 (contains_of_runFrom hinitial hq), hrun, fun r => ?_⟩
    rw [← run_eq_some_iff, hrun, Option.some.injEq, eq_comm]
  · rw [run_append, run_append, h]
  · rw [run_append, h]; rfl

/-- A final state without a row; two words that lead to the same state; a foreign character. -/
theorem run_follows_path_cycle :
    ∃ d e : Automaton, d.finals = [1, 7] ∧ e.finals = [1] ∧ (∀ w, e.accepts w = d.accepts w) ∧
      (∃ q ∈ d.states, d.run "aaa" = some q ∧ d.Path 0 "aaa".toList q) ∧
      d.run "ab" = none ∧ d.run ("a" ++ "aab") = d.run ("aaa" ++ "aab") ∧ d.run ("ab" ++ "a") = none := by
  let d : Automaton := ⟨.ofList [(0, .ofList [('a', 1)]), (1, .ofList [('a', 0)])], [1, 7],
    failure?_eq_none_iff.1 rfl, by decide, isBlank_of_any rfl⟩
  let e : Automaton := ⟨d.rows, [1], failure?_eq_none_iff.1 rfl, by decide, isBlank_of_any rfl⟩
  obtain ⟨-, hnone, hsome, -, hcongr, happend, hdead⟩ := run_follows_path d
  have halphabet : d.alphabet = ['a'] := by decide
  obtain ⟨q, hq, hrun, hpath⟩ := hsome "aaa" (by simp [halphabet])
  have hforeign : d.run "ab" = none := (hnone "ab").2 ⟨'b', by decide, by decide⟩
  have hsame : d.run "a" = d.run "aaa" := rfl
  exact ⟨d, e, rfl, rfl, hcongr e (fun _ _ _ => Iff.rfl) (by decide), ⟨q, hq, hrun, (hpath q).2 rfl⟩, hforeign,
    happend "a" "aaa" "aab" hsame, hdead "ab" "a" hforeign⟩

end Acceptor.Automaton
