import Acceptor.Analysis.Reachability
import Acceptor.Proofs.Table
import Mathlib.Data.List.Nodup
import Mathlib.Logic.Relation

/-!
# The search finds the states that words lead to

`Searched next start n taken queue`: the rows in `taken` have left the queue, each row seen is reached from
`start`, none is seen twice, and the successors of a row taken have been seen. A step of the search keeps
this (`Searched.step`). Since there are only `n` rows, the queue is empty after `n` steps, and then the
rows taken are all that can be reached (`mem_search_iff`). On the table of an automaton the successors of a
row are the rows that some symbol leads to, so a row is reached exactly if a word leads to its state
(`mem_reachable_iff`).
-/

namespace Acceptor

open Relation (ReflTransGen)

section

variable {next : Nat → List Nat} {start n row : Nat} {taken queue : List Nat}

structure Searched (next : Nat → List Nat) (start n : Nat) (taken queue : List Nat) : Prop where
  nodup : (taken ++ queue).Nodup
  lt : ∀ r ∈ taken ++ queue, r < n
  reached : ∀ r ∈ taken ++ queue, ReflTransGen (fun a b => b ∈ next a) start r
  closed : ∀ r ∈ taken, ∀ s ∈ next r, s ∈ taken ++ queue

namespace Searched

theorem init (h : start < n) : Searched next start n [] [start] where
  nodup := List.nodup_singleton start
  lt r hr := by rw [List.mem_singleton.1 hr]; exact h
  reached r hr := by rw [List.mem_singleton.1 hr]
  closed r hr := absurd hr List.not_mem_nil

theorem length_le (h : Searched next start n taken queue) : taken.length + queue.length ≤ n := by
  have hsub : taken ++ queue ⊆ List.range n := fun r hr => List.mem_range.2 (h.lt r hr)
  have hle := (List.subperm_of_subset h.nodup hsub).length_le
  rwa [List.length_append, List.length_range] at hle

theorem step (hnodup : ∀ r, (next r).Nodup) (hlt : ∀ r, ∀ s ∈ next r, s < n)
    (h : Searched next start n taken (row :: queue)) :
    Searched next start n (taken ++ [row])
      (queue ++ (next row).filter (!(taken ++ row :: queue).contains ·)) := by
  set found := (next row).filter (!(taken ++ row :: queue).contains ·)
  have hfound : ∀ s, s ∈ found ↔ s ∈ next row ∧ s ∉ taken ++ row :: queue := fun s => by
    simp only [found, List.mem_filter, Bool.not_eq_true', List.contains_eq_mem, decide_eq_false_iff_not]
  have hseen : taken ++ [row] ++ (queue ++ found) = taken ++ row :: queue ++ found := by simp
  have hrow : row ∈ taken ++ row :: queue := by simp
  refine ⟨?_, fun r hr => ?_, fun r hr => ?_, fun r hr s hs => ?_⟩
  · rw [hseen]
    refine h.nodup.append ((hnodup row).filter _) fun s hs hs' => ?_
    exact ((hfound s).1 hs').2 hs
  · rw [hseen] at hr
    rcases List.mem_append.1 hr with hr | hr
    · exact h.lt r hr
    · exact hlt row r ((hfound r).1 hr).1
  · rw [hseen] at hr
    rcases List.mem_append.1 hr with hr | hr
    · exact h.reached r hr
    · exact (h.reached row hrow).tail ((hfound r).1 hr).1
  · rw [hseen]
    rcases List.mem_append.1 hr with hr | hr
    · exact List.mem_append_left _ (h.closed r hr s hs)
    · obtain rfl := List.mem_singleton.1 hr
      by_cases hmem : s ∈ taken ++ r :: queue
      · exact List.mem_append_left _ hmem
      · exact List.mem_append_right _ ((hfound s).2 ⟨hs, hmem⟩)

/-- With a step for each row that has not been taken yet, the search ends with an empty queue. -/
theorem search (hnodup : ∀ r, (next r).Nodup) (hlt : ∀ r, ∀ s ∈ next r, s < n) {steps : Nat}
    (hsteps : n ≤ taken.length + steps) (h : Searched next start n taken queue) :
    Searched next start n (search next steps (taken ++ queue) queue) [] ∧
      taken ++ queue ⊆ Acceptor.search next steps (taken ++ queue) queue := by
  induction steps generalizing taken queue with
  | zero =>
    have hle := h.length_le
    have hqueue : queue = [] := List.eq_nil_of_length_eq_zero (by omega)
    subst hqueue
    rw [List.append_nil]
    exact ⟨h, List.Subset.refl _⟩
  | succ steps ih =>
    cases queue with
    | nil =>
      rw [List.append_nil]
      exact ⟨h, List.Subset.refl _⟩
    | cons row queue =>
      rw [Acceptor.search]
      set found := (next row).filter (!(taken ++ row :: queue).contains ·)
      have hseen : taken ++ row :: queue ++ found = taken ++ [row] ++ (queue ++ found) := by simp
      have hlen : n ≤ (taken ++ [row]).length + steps := by
        rw [List.length_append, List.length_singleton]; omega
      obtain ⟨hsearched, hsub⟩ := ih hlen (h.step hnodup hlt)
      rw [hseen]
      refine ⟨hsearched, fun r hr => hsub ?_⟩
      rw [← hseen]
      exact List.mem_append_left _ hr

end Searched

theorem mem_search_iff (hnodup : ∀ r, (next r).Nodup) (hlt : ∀ r, ∀ s ∈ next r, s < n) (hstart : start < n) :
    row ∈ search next n [start] [start] ↔ ReflTransGen (fun a b => b ∈ next a) start row := by
  have hinit : Searched next start n [] [start] := Searched.init hstart
  have hsteps : n ≤ ([] : List Nat).length + n := by simp
  obtain ⟨h, hsub⟩ := hinit.search hnodup hlt hsteps
  rw [List.nil_append] at h hsub
  constructor
  · intro hrow
    exact h.reached row (by rwa [List.append_nil])
  · intro hreached
    induction hreached with
    | refl => exact hsub List.mem_cons_self
    | tail _ hs ih => simpa using h.closed _ ih _ hs

end

namespace Table

variable {t : Table} {row r : Nat}

theorem mem_successors_iff : r ∈ t.successors row ↔ r < t.height ∧ r ∈ t.cells.getD row [] := by
  simp only [successors, List.mem_map, List.mem_filter, Prod.exists, exists_eq_right,
    List.mk_mem_zipIdx_iff_getElem?, getElem?_countRows, decide_eq_true_eq]
  constructor
  · rintro ⟨m, hm, hpos⟩
    split at hm
    · next hr => cases hm; exact ⟨hr, List.count_pos_iff.1 hpos⟩
    · cases hm
  · rintro ⟨hr, hmem⟩
    exact ⟨_, if_pos hr, List.count_pos_iff.2 hmem⟩

theorem nodup_successors (t : Table) (row : Nat) : (t.successors row).Nodup := by
  have hsub : List.Sublist (t.successors row)
      ((t.countRows (t.cells.getD row [])).zipIdx.map Prod.snd) := List.filter_sublist.map _
  refine hsub.nodup ?_
  rw [List.zipIdx_map_snd]
  exact List.nodup_range'

end Table

namespace Automaton

variable {d : Automaton} {q t : Int} {c : Char} {row r : Nat} {w : List Char}

/-- The successors of a row are the rows of the targets. -/
theorem mem_successors_table (hq : d.states[row]? = some q) :
    r ∈ d.table.successors row ↔ ∃ c t, d.target? q c = some t ∧ d.states.idxOf t = r := by
  have hcells : d.table.cells.getD row [] =
      d.alphabet.filterMap fun c => (d.target? q c).map (d.states.idxOf ·) := by
    rw [List.getD_eq_getElem?_getD, getElem?_cells hq]; rfl
  rw [Table.mem_successors_iff, hcells, List.mem_filterMap]
  simp only [Option.map_eq_some_iff]
  constructor
  · rintro ⟨-, c, -, t, ht, hr⟩; exact ⟨c, t, ht, hr⟩
  · rintro ⟨c, t, ht, rfl⟩
    have hmem : t ∈ d.states := mem_states.2 (contains_of_target? ht)
    exact ⟨List.idxOf_lt_length_iff.2 hmem, c, mem_alphabet_of_target? ht, t, ht, rfl⟩

/-- A row that is reached is that of a state which a word leads to. -/
theorem exists_runFrom_of_reached
    (h : ReflTransGen (fun a b => b ∈ d.table.successors a) d.table.initialRow row) :
    ∃ w q, d.states[row]? = some q ∧ d.runFrom initial w = some q := by
  induction h with
  | refl => exact ⟨[], initial, d.getElem?_initialRow, rfl⟩
  | tail _ hs ih =>
    obtain ⟨w, q, hq, hw⟩ := ih
    obtain ⟨c, t, ht, rfl⟩ := (mem_successors_table hq).1 hs
    exact ⟨w ++ [c], t, getElem?_idxOf_states (contains_of_target? ht), runFrom_concat hw ht⟩

theorem reached_of_runFrom (hq : d.rows.contains q = true) (h : d.runFrom q w = some t) :
    ReflTransGen (fun a b => b ∈ d.table.successors a) (d.states.idxOf q) (d.states.idxOf t) := by
  induction w generalizing q with
  | nil => cases h; exact .refl
  | cons c w ih =>
    obtain ⟨r, hr, h⟩ := Option.bind_eq_some_iff.1 h
    have hstep : d.states.idxOf r ∈ d.table.successors (d.states.idxOf q) :=
      (mem_successors_table (getElem?_idxOf_states hq)).2 ⟨c, r, hr, rfl⟩
    exact .head hstep (ih (contains_of_target? hr) h)

theorem mem_reachableRows_iff :
    row ∈ d.table.reachableRows ↔
      ReflTransGen (fun a b => b ∈ d.table.successors a) d.table.initialRow row :=
  mem_search_iff d.table.nodup_successors (fun _ _ hs => (Table.mem_successors_iff.1 hs).1)
    (List.getElem?_eq_some_iff.1 d.getElem?_initialRow).1

theorem mem_reachable : q ∈ d.reachable ↔ ∃ w, d.runFrom initial w = some q := by
  have hrows : q ∈ d.reachable ↔ ∃ row ∈ d.table.reachableRows, d.states[row]? = some q := by
    show q ∈ ascending (d.table.reachableRows.filterMap fun row => d.states[row]?) ↔ _
    rw [mem_ascending, List.mem_filterMap]
  rw [hrows]
  constructor
  · rintro ⟨row, hrow, hq⟩
    obtain ⟨w, p, hp, hw⟩ := exists_runFrom_of_reached (mem_reachableRows_iff.1 hrow)
    rw [hq] at hp; cases hp
    exact ⟨w, hw⟩
  · rintro ⟨w, hw⟩
    have hq := contains_of_runFrom d.contains_initial hw
    exact ⟨_, mem_reachableRows_iff.2 (reached_of_runFrom d.contains_initial hw), getElem?_idxOf_states hq⟩

theorem mem_reachable_iff_run (d : Automaton) :
    (∀ q, q ∈ d.reachable ↔ ∃ w : String, (∀ c ∈ w.toList, c ∈ d.alphabet) ∧ d.run w = some q) ∧
    0 ∈ d.reachable ∧
    (∀ q ∈ d.reachable, ∀ c ∈ d.alphabet, ∃ t ∈ d.reachable, d.target? q c = some t) ∧
    ((∃ w, d.accepts w = true) ↔ ∃ q ∈ d.reachable, q ∈ d.finals) := by
  have hrun (q : Int) : q ∈ d.reachable ↔ ∃ w : String, d.run w = some q := by
    rw [mem_reachable]
    constructor
    · rintro ⟨w, hw⟩
      exact ⟨String.ofList w, by rw [run, String.toList_ofList]; exact hw⟩
    · rintro ⟨w, hw⟩; exact ⟨w.toList, hw⟩
  refine ⟨fun q => ?_, mem_reachable.2 ⟨[], rfl⟩, fun q hq c hc => ?_, ?_⟩
  · rw [hrun]
    constructor
    · rintro ⟨w, hw⟩; exact ⟨w, mem_alphabet_of_runFrom hw, hw⟩
    · rintro ⟨w, -, hw⟩; exact ⟨w, hw⟩
  · obtain ⟨w, hw⟩ := mem_reachable.1 hq
    obtain ⟨t, ht⟩ := exists_target? (contains_of_runFrom d.contains_initial hw) hc
    exact ⟨t, mem_reachable.2 ⟨w ++ [c], runFrom_concat hw ht⟩, ht⟩
  · simp only [accepts_iff, hrun]
    constructor
    · rintro ⟨w, q, hw, hq⟩; exact ⟨q, ⟨w, hw⟩, hq⟩
    · rintro ⟨q, ⟨w, hw⟩, hq⟩; exact ⟨w, q, hw, hq⟩

/-- Two symbols lead from 0 to 1 and back runs a cycle; no word leads to 2. -/
theorem mem_reachable_iff_run_of_cycle :
    ∃ d : Automaton, d.states = [0, 1, 2] ∧ d.reachable = [0, 1] ∧ (∃ w, d.run w = some 1) ∧
      (∀ w, d.run w ≠ some 2) ∧ ∃ w, d.accepts w = true := by
  let d : Automaton := ⟨.ofList [(0, .ofList [('a', 1), ('b', 1)]), (1, .ofList [('a', 0), ('b', 1)]),
    (2, .ofList [('a', 0), ('b', 2)])], [1], failure?_eq_none_iff.1 rfl, by decide,
    fun c hc => Bool.eq_false_iff.2 (List.any_eq_false.1 rfl c hc)⟩
  have hreachable : d.reachable = [0, 1] := by decide +kernel
  obtain ⟨hrun, -, -, haccepts⟩ := mem_reachable_iff_run d
  rw [hreachable] at hrun haccepts
  obtain ⟨w, -, hw⟩ := (hrun 1).1 (by decide)
  refine ⟨d, rfl, hreachable, ⟨w, hw⟩, fun u hu => ?_, haccepts.2 ⟨1, by decide, by decide⟩⟩
  have hmem : (2 : Int) ∈ [0, 1] := (hrun 2).2 ⟨u, mem_alphabet_of_runFrom hu, hu⟩
  exact absurd hmem (by decide)

end Automaton

end Acceptor
