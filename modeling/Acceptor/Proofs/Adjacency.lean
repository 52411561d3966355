import Acceptor.Proofs.Table
import Mathlib.Algebra.BigOperators.Group.Finset.Basic
import Mathlib.Algebra.GroupWithZero.Nat

/-!
# The adjacency matrix counts symbols

Each cell of the table is a one in the matrix, in the row of the cell and in the column of the row it leads to.
Laid out flat, the numbers of the rows, each once for every column of the table, stand against the cells row by
row (`Table.coordinates`); summing the ones that fall together gives the matrix (`Table.adjacency_eq_summed`).
An entry is the number of symbols that lead from state to state (`Automaton.entry?_adjacency`), and as every
symbol leads somewhere, none is lost from a row (`Table.sum_countRows`).
-/

namespace Acceptor

namespace Table

/-- The entry of a matrix that is given by its rows. -/
def entry? (m : List (List Nat)) (row column : Nat) : Option Nat := m[row]?.bind (·[column]?)

/-- The places of the ones, by flattened rows of the table. -/
def coordinates (t : Table) : List (Nat × Nat) :=
  ((List.range t.height).flatMap fun row => List.replicate t.width row).zip t.cells.flatten

/-- The square matrix of ones at the given places, where ones at the same place are summed. -/
def summed (n : Nat) (ones : List (Nat × Nat)) : List (List Nat) :=
  (List.range n).map fun row => (List.range n).map fun column => ones.count (row, column)

variable {t : Table} {targets : List Nat} {row column : Nat}

theorem zip_replicate (row : Nat) (targets : List Nat) :
    (List.replicate targets.length row).zip targets = targets.map (row, ·) := by
  induction targets with
  | nil => rfl
  | cons r targets ih => simp [List.replicate_succ, ih]

/-- The rows are numbered from `first` on. -/
theorem count_zip_flatten {width : Nat} {cells : List (List Nat)} (h : ∀ targets ∈ cells, targets.length = width)
    (first row column : Nat) :
    (((List.range' first cells.length).flatMap fun r => List.replicate width r).zip cells.flatten).count
      (first + row, column) = (cells.getD row []).count column := by
  induction cells generalizing first row with
  | nil => simp
  | cons targets cells ih =>
    obtain ⟨hw, hcells⟩ := List.forall_mem_cons.1 h
    subst hw
    rw [List.length_cons, List.range'_succ, List.flatMap_cons, List.flatten_cons, List.zip_append (by simp),
      zip_replicate, List.count_append]
    set rest := ((List.range' (first + 1) cells.length).flatMap fun r =>
      List.replicate targets.length r).zip cells.flatten
    cases row with
    | zero =>
      have hrest : (first + 0, column) ∉ rest := by
        intro hmem
        obtain ⟨r, hr, hcopy⟩ := List.mem_flatMap.1 (List.of_mem_zip hmem).1
        have := (List.mem_range'_1.1 hr).1
        have := List.eq_of_mem_replicate hcopy
        omega
      have hinj : Function.Injective fun c : Nat => (first, c) := fun _ _ h => (Prod.ext_iff.1 h).2
      rw [List.count_eq_zero_of_not_mem hrest]
      exact List.count_map_of_injective targets _ hinj column
    | succ row =>
      have htargets : (first + (row + 1), column) ∉ targets.map (first, ·) := by simp
      rw [List.count_eq_zero_of_not_mem htargets, Nat.zero_add, show first + (row + 1) = first + 1 + row by omega]
      exact ih hcells (first + 1) row

theorem adjacency_eq_summed (hheight : t.cells.length = t.height)
    (hwidth : ∀ targets ∈ t.cells, targets.length = t.width) : t.adjacency = summed t.height t.coordinates := by
  have hcount (row column : Nat) : t.coordinates.count (row, column) = (t.cells.getD row []).count column := by
    have h := count_zip_flatten hwidth 0 row column
    rwa [hheight, ← List.range_eq_range', Nat.zero_add] at h
  apply List.ext_getElem?
  intro row
  rw [adjacency, summed, List.getElem?_map, List.getElem?_map]
  simp only [hcount]
  by_cases hrow : row < t.height
  · have hcells := List.getElem?_eq_getElem (hheight ▸ hrow)
    rw [List.getElem?_range hrow, hcells, Option.map_some, Option.map_some, List.getD_eq_getElem?_getD, hcells]; rfl
  · rw [List.getElem?_eq_none (by omega), List.getElem?_eq_none (by simpa using hrow)]; rfl

/-- A target is counted in exactly one place. -/
theorem sum_countRows (h : ∀ r ∈ targets, r < t.height) : (t.countRows targets).sum = targets.length := by
  have hsum := Multiset.sum_count_eq_card (s := Finset.range t.height) (m := targets)
    fun r hr => Finset.mem_range.2 (h r hr)
  rw [Finset.sum_eq_multiset_sum, Finset.range_val, ← Multiset.coe_range, Multiset.map_coe, Multiset.sum_coe,
    Multiset.coe_card] at hsum
  simpa [countRows] using hsum

end Table

namespace Automaton

variable {d : Automaton} {q p : Int} {row column : Nat}

theorem length_of_mem_cells {targets : List Nat} (h : targets ∈ d.table.cells) :
    targets.length = d.alphabet.length := by
  rw [cells_table] at h
  obtain ⟨q, -, rfl⟩ := List.mem_map.1 h
  exact List.length_map _

theorem lt_of_mem_cells {targets : List Nat} (h : targets ∈ d.table.cells) :
    ∀ r ∈ targets, r < d.table.height := by
  intro r hr
  obtain ⟨q, -, rfl⟩ := List.mem_map.1 h
  obtain ⟨c, -, hc⟩ := List.mem_filterMap.1 hr
  obtain ⟨t, ht, rfl⟩ := Option.map_eq_some_iff.1 hc
  exact List.idxOf_lt_length_iff.2 (mem_states.2 (contains_of_target? ht))

/-- An entry counts the symbols that lead from the state of its row to the state of its column. -/
theorem entry?_adjacency (hq : d.states[row]? = some q) (hp : d.states[column]? = some p) :
    Table.entry? d.table.adjacency row column = some (d.alphabet.countP fun c => d.target? q c == some p) := by
  obtain ⟨hcolumn, rfl⟩ := List.getElem?_eq_some_iff.1 hp
  have hidx {t : Int} (ht : t ∈ d.states) : d.states.idxOf t = column ↔ t = d.states[column] := by
    rw [← List.idxOf_inj ht, d.nodup_states.idxOf_getElem]
  rw [Table.entry?, Table.adjacency, List.getElem?_map, getElem?_cells hq, Option.map_some, Option.bind_some,
    Table.getElem?_countRows, if_pos (show column < d.table.height from hcolumn), List.count_filterMap]
  refine congrArg some (List.countP_congr fun c _ => ?_)
  cases ht : d.target? q c with
  | none => simp
  | some t => simpa using hidx (mem_states.2 (contains_of_target? ht))

theorem height_table (d : Automaton) : d.table.cells.length = d.table.height := List.length_map _

theorem length_adjacency (d : Automaton) : d.table.adjacency.length = d.states.length :=
  (List.length_map _).trans d.height_table

theorem length_of_mem_adjacency {entries : List Nat} (h : entries ∈ d.table.adjacency) :
    entries.length = d.states.length := by
  obtain ⟨targets, -, rfl⟩ := List.mem_map.1 h
  rw [Table.countRows, List.length_map, List.length_range]
  rfl

theorem sum_of_mem_adjacency {entries : List Nat} (h : entries ∈ d.table.adjacency) :
    entries.sum = d.alphabet.length := by
  obtain ⟨targets, htargets, rfl⟩ := List.mem_map.1 h
  rw [Table.sum_countRows (lt_of_mem_cells htargets), length_of_mem_cells htargets]

theorem sum_adjacency (d : Automaton) :
    (d.table.adjacency.map List.sum).sum = d.states.length * d.alphabet.length := by
  have hrows : ∀ total ∈ d.table.adjacency.map List.sum, total = d.alphabet.length := by
    intro total h
    obtain ⟨entries, hentries, rfl⟩ := List.mem_map.1 h
    exact sum_of_mem_adjacency hentries
  rw [List.eq_replicate_of_mem hrows, List.sum_replicate_nat, List.length_map, length_adjacency]

/-- The matrix is square, its entries are numbers of symbols, and it is the sum of its ones. -/
theorem adjacency_counts (d : Automaton) :
    let m := d.table.adjacency
    let n := d.states.length
    m.length = n ∧ (∀ entries ∈ m, entries.length = n) ∧
    (∀ i j q p, d.states[i]? = some q → d.states[j]? = some p →
      ∃ count, Table.entry? m i j = some count ∧ count = (d.alphabet.countP fun c => d.target? q c == some p) ∧
        (0 < count ↔ ∃ c, d.target? q c = some p)) ∧
    (∀ entries ∈ m, entries.sum = d.alphabet.length) ∧
    (m.map List.sum).sum = n * d.alphabet.length ∧
    m = Table.summed n d.table.coordinates := by
  refine ⟨d.length_adjacency, fun entries => length_of_mem_adjacency, fun i j q p hq hp => ?_,
    fun entries => sum_of_mem_adjacency, d.sum_adjacency,
    Table.adjacency_eq_summed d.height_table fun targets => length_of_mem_cells⟩
  refine ⟨_, entry?_adjacency hq hp, rfl, ?_⟩
  rw [List.countP_pos_iff]
  constructor
  · rintro ⟨c, -, h⟩; exact ⟨c, eq_of_beq h⟩
  · rintro ⟨c, h⟩; exact ⟨c, mem_alphabet_of_target? h, by simp [h]⟩

/-- Two of three symbols lead from 0 to a state with a smaller id, and none leads back. -/
theorem adjacency_counts_parallel :
    ∃ d : Automaton, d.states = [-2, 0] ∧ d.alphabet = ['a', 'b', 'c'] ∧
      Table.entry? d.table.adjacency 1 0 = some 2 ∧ Table.entry? d.table.adjacency 0 1 = some 0 ∧
      (∃ c, d.target? 0 c = some (-2)) ∧ (¬ ∃ c, d.target? (-2) c = some 0) ∧
      (∀ entries ∈ d.table.adjacency, entries.sum = 3) ∧ (d.table.adjacency.map List.sum).sum = 6 := by
  let d : Automaton := ⟨.ofList [(0, .ofList [('c', -2), ('a', 0), ('b', -2)]),
    (-2, .ofList [('a', -2), ('b', -2), ('c', -2)])], [0], failure?_eq_none_iff.1 rfl, by decide, isBlank_of_any rfl⟩
  obtain ⟨-, -, hentry, hsum, htotal, -⟩ := adjacency_counts d
  obtain ⟨there, hthere, hcount, hsome⟩ := hentry 1 0 0 (-2) rfl rfl
  obtain ⟨back, hback, hcount', hnone⟩ := hentry 0 1 (-2) 0 rfl rfl
  obtain rfl : there = 2 := hcount
  obtain rfl : back = 0 := hcount'
  exact ⟨d, rfl, rfl, hthere, hback, hsome.1 (by omega), fun h => absurd (hnone.2 h) (by omega), hsum, htotal⟩

end Automaton

end Acceptor
