import Acceptor.Proofs.Success
import Acceptor.Proofs.Table

/-!
# The table does what the automaton does

`t.LaysOut d`: the table `t` numbers the states and the symbols of `d` in ascending order, and its cells lead
from number to number as the edges of `d` do. Columns that spell a word then lead to the row of the state that
the word leads to (`LaysOut.follow?`), and the rows of `d` can be read off the table again
(`LaysOut.target?_toRows`). The table of an automaton lays it out; making it by lookups that must all find
something comes to the same (`table?_eq`).
-/

namespace Acceptor

theorem idxOf?_of_mem {α : Type} [BEq α] [LawfulBEq α] {l : List α} {a : α} (h : a ∈ l) :
    l.idxOf? a = some (l.idxOf a) := by
  obtain ⟨i, hi⟩ := Option.isSome_iff_exists.1 (List.isSome_idxOf?.2 h)
  rw [List.idxOf_eq_getD_idxOf?, hi]; rfl

/-- The table made by lookups only: of the row of a state, of its edge for a symbol and of the number of the
target. There is none if one of them finds nothing. -/
def Automaton.table? (d : Automaton) : Option Table := do
  let states := d.states
  let symbols := d.alphabet
  let cells ← states.mapM fun q => do
    let row ← d.rows.find? q
    symbols.mapM fun c => do states.idxOf? (← row.find? c)
  let initialRow ← states.idxOf? Automaton.initial
  return ⟨states, symbols, cells, initialRow, states.map d.finals.contains⟩

namespace Table

/-- The row that the columns lead to, one after the other. -/
def follow? (t : Table) (row : Nat) (columns : List Nat) : Option Nat := columns.foldlM t.cell? row

def edgesOf (t : Table) (row : Nat) : List (Char × Int) :=
  t.symbols.zipIdx.filterMap fun e => ((t.cell? row e.2).bind (t.states[·]?)).map (e.1, ·)

/-- The rows of an automaton, made from the states, the symbols and the cells. -/
def toRows (t : Table) : Rows Int Char :=
  .ofList (t.states.zipIdx.map fun e => (e.1, .ofList (t.edgesOf e.2)))

/-- The table numbers the states and symbols of the automaton in ascending order and leads from number to
number as the automaton leads from state to state. -/
structure LaysOut (t : Table) (d : Automaton) : Prop where
  states : t.states.Pairwise (· < ·)
  mem_states : ∀ q, q ∈ t.states ↔ q ∈ d.states
  symbols : t.symbols.Pairwise (· < ·)
  mem_symbols : ∀ c, c ∈ t.symbols ↔ c ∈ d.alphabet
  height : t.cells.length = t.states.length
  width : ∀ cells ∈ t.cells, cells.length = t.symbols.length
  cell : ∀ (row column : Nat) (q : Int) (c : Char), t.states[row]? = some q → t.symbols[column]? = some c →
    ∃ r p, t.cell? row column = some r ∧ r < t.states.length ∧ t.states[r]? = some p ∧ d.target? q c = some p
  initialRow : t.states[t.initialRow]? = some 0
  finalRows_length : t.finalRows.length = t.states.length
  finalRows : ∀ (row : Nat) (q : Int), t.states[row]? = some q → t.finalRows[row]? = some (d.finals.contains q)

namespace LaysOut

variable {t : Table} {d : Automaton} {row : Nat} {q p : Int} {c : Char}

theorem follow? (h : t.LaysOut d) {columns : List Nat} {w : List Char} (hq : t.states[row]? = some q)
    (hw : List.Forall₂ (fun column c => t.symbols[column]? = some c) columns w) :
    ∃ r p, t.follow? row columns = some r ∧ d.runFrom q w = some p ∧ t.states[r]? = some p := by
  induction hw generalizing row q with
  | nil => exact ⟨row, q, rfl, rfl, hq⟩
  | cons hc _ ih =>
    obtain ⟨r, p, hcell, -, hp, ht⟩ := h.cell _ _ _ _ hq hc
    obtain ⟨r', p', hfollow, hrun, hp'⟩ := ih hp
    refine ⟨r', p', ?_, ?_, hp'⟩
    · rw [Table.follow?, List.foldlM_cons, hcell]; exact hfollow
    · rw [Automaton.runFrom, ht]; exact hrun

theorem nodup_edgesOf (h : t.LaysOut d) (row : Nat) : ((t.edgesOf row).map (·.1)).Nodup := by
  have hsymbols : t.symbols.zipIdx.Pairwise fun e f => e.1 ≠ f.1 := by
    rw [← List.pairwise_map, List.zipIdx_map_fst]
    exact h.symbols.nodup
  have hfst : ∀ e : Char × Nat, ∀ b, ((t.cell? row e.2).bind (t.states[·]?)).map (e.1, ·) = some b → b.1 = e.1 := by
    intro e b hb
    obtain ⟨target, -, rfl⟩ := Option.map_eq_some_iff.1 hb; rfl
  refine List.pairwise_map.2 (List.pairwise_filterMap.2 (hsymbols.imp fun {e f} hne b hb b' hb' => ?_))
  rw [hfst e b hb, hfst f b' hb']
  exact hne

theorem mem_edgesOf (h : t.LaysOut d) (hq : t.states[row]? = some q) :
    (c, p) ∈ t.edgesOf row ↔ d.target? q c = some p := by
  simp only [edgesOf, List.mem_filterMap, Prod.exists, List.mk_mem_zipIdx_iff_getElem?,
    Option.map_eq_some_iff, Option.bind_eq_some_iff, Prod.mk.injEq]
  constructor
  · rintro ⟨b, column, hb, u, ⟨r, hr, hu⟩, rfl, rfl⟩
    obtain ⟨r', p', hcell, -, hp, ht⟩ := h.cell _ _ _ _ hq hb
    rw [hr] at hcell; cases hcell
    rw [hu] at hp; cases hp
    exact ht
  · intro ht
    have hc : c ∈ t.symbols := (h.mem_symbols c).2 (Automaton.mem_alphabet_of_target? ht)
    obtain ⟨column, hb⟩ := List.mem_iff_getElem?.1 hc
    obtain ⟨r, p', hcell, -, hp, ht'⟩ := h.cell _ _ _ _ hq hb
    rw [ht] at ht'; cases ht'
    exact ⟨c, column, hb, p, ⟨r, hcell, hp⟩, rfl, rfl⟩

theorem find?_toRows (h : t.LaysOut d) {edges : OrderedMap Char Int} :
    t.toRows.find? q = some edges ↔ ∃ row, t.states[row]? = some q ∧ edges = .ofList (t.edgesOf row) := by
  have hnodup : ((t.states.zipIdx.map fun e => (e.1, OrderedMap.ofList (t.edgesOf e.2))).map (·.1)).Nodup := by
    rw [List.map_map]
    show (t.states.zipIdx.map Prod.fst).Nodup
    rw [List.zipIdx_map_fst]
    exact h.states.nodup
  rw [toRows, OrderedMap.find?_ofList_iff hnodup]
  simp only [List.mem_map, Prod.exists, List.mk_mem_zipIdx_iff_getElem?, Prod.mk.injEq]
  constructor
  · rintro ⟨_, row, hq, rfl, rfl⟩; exact ⟨row, hq, rfl⟩
  · rintro ⟨row, hq, rfl⟩; exact ⟨q, row, hq, rfl, rfl⟩

theorem contains_toRows (h : t.LaysOut d) (q : Int) : t.toRows.contains q = d.rows.contains q := by
  rw [Bool.eq_iff_iff, OrderedMap.contains_iff, ← Automaton.mem_states, ← h.mem_states, List.mem_iff_getElem?]
  simp only [h.find?_toRows]
  constructor
  · rintro ⟨_, row, hq, -⟩; exact ⟨row, hq⟩
  · rintro ⟨row, hq⟩; exact ⟨_, row, hq, rfl⟩

theorem target?_toRows (h : t.LaysOut d) (q : Int) (c : Char) : t.toRows.target? q c = d.rows.target? q c := by
  show _ = d.target? q c
  ext p
  simp only [Rows.target?, Option.bind_eq_some_iff, h.find?_toRows]
  constructor
  · rintro ⟨_, ⟨row, hq, rfl⟩, hp⟩
    exact (h.mem_edgesOf hq).1 ((OrderedMap.find?_ofList_iff (h.nodup_edgesOf row)).1 hp)
  · intro ht
    have hmem : q ∈ t.states := (h.mem_states q).2 (Automaton.mem_states.2 (Automaton.contains_source ht))
    obtain ⟨row, hq⟩ := List.mem_iff_getElem?.1 hmem
    exact ⟨_, ⟨row, hq, rfl⟩, (OrderedMap.find?_ofList_iff (h.nodup_edgesOf row)).2 ((h.mem_edgesOf hq).2 ht)⟩

end LaysOut

end Table

namespace Automaton

theorem table?_eq (d : Automaton) : d.table? = some d.table := by
  have hcells : (d.states.mapM fun q => do
      let row ← d.rows.find? q
      d.alphabet.mapM fun c => do d.states.idxOf? (← row.find? c)) = some d.table.cells := by
    rw [cells_table]
    refine mapM_eq_some_map fun q hq => ?_
    obtain ⟨row, hrow⟩ := OrderedMap.contains_iff.1 (mem_states.1 hq)
    rw [hrow]
    refine mapM_eq_some_map fun c hc => ?_
    obtain ⟨t, ht⟩ := exists_target? (mem_states.1 hq) hc
    have hfind : row.find? c = some t := by rw [← ht, target?, hrow]; rfl
    rw [hfind, ht]
    exact idxOf?_of_mem (mem_states.2 (contains_of_target? ht))
  rw [table?, hcells]
  show ((d.states.idxOf? initial).bind fun r => some _) = _
  rw [idxOf?_of_mem (mem_states.2 d.contains_initial)]; rfl

theorem laysOut_table (d : Automaton) : d.table.LaysOut d where
  states := pairwise_ascending _
  mem_states _ := Iff.rfl
  symbols := pairwise_ascending _
  mem_symbols _ := Iff.rfl
  height := List.length_map _
  width cells h := by
    rw [cells_table] at h
    obtain ⟨q, -, rfl⟩ := List.mem_map.1 h
    exact List.length_map _
  cell row column q c hq hc := by
    obtain ⟨t, ht, hrow, hcell⟩ := cell?_table hq hc
    have hget := getElem?_idxOf_states hrow
    exact ⟨_, t, hcell, (List.getElem?_eq_some_iff.1 hget).1, hget, ht⟩
  initialRow := d.getElem?_initialRow
  finalRows_length := List.length_map _
  finalRows row q hq := by
    show (d.states.map d.finals.contains)[row]? = _
    rw [List.getElem?_map, show d.states[row]? = some q from hq]; rfl

/-- The table of an automaton can be made, lays it out, runs as it does and tells all of its edges. -/
theorem table_simulates (d : Automaton) :
    d.table? = some d.table ∧ d.table.LaysOut d ∧
    (∀ w : String, (∀ c ∈ w.toList, c ∈ d.alphabet) → ∃ row q,
      d.table.follow? d.table.initialRow (w.toList.map fun c => d.table.symbols.idxOf c) = some row ∧
      d.run w = some q ∧ d.table.states[row]? = some q) ∧
    (∀ q, d.table.toRows.contains q = d.rows.contains q) ∧
    ∀ q c, d.table.toRows.target? q c = d.rows.target? q c := by
  have h := d.laysOut_table
  refine ⟨d.table?_eq, h, fun w hw => h.follow? h.initialRow ?_, h.contains_toRows, h.target?_toRows⟩
  rw [List.forall₂_map_left_iff, List.forall₂_same]
  exact fun c hc => List.getElem?_idxOf (hw c hc)

/-- A negative id and ids far apart. -/
theorem table_simulates_sparse :
    ∃ d : Automaton, d.table.states = [-5, 0, 9] ∧ d.table.cells = [[0, 2], [2, 0], [1, 1]] ∧
      ∃ row q, d.table.follow? 1 [0, 1, 0] = some row ∧ d.run "aba" = some q ∧
        d.table.states[row]? = some q := by
  let d : Automaton := ⟨.ofList [(9, .ofList [('b', 0), ('a', 0)]), (0, .ofList [('a', 9), ('b', -5)]),
    (-5, .ofList [('a', -5), ('b', 9)])], [9], failure?_eq_none_iff.1 rfl, by decide, isBlank_of_any rfl⟩
  have halphabet : d.alphabet = ['a', 'b'] := by decide
  have hrow : d.table.initialRow = 1 := by decide
  have hcolumns : ("aba".toList.map fun c => d.table.symbols.idxOf c) = [0, 1, 0] := by decide
  have hrun := (table_simulates d).2.2.1 "aba" (by simp [halphabet])
  rw [hrow, hcolumns] at hrun
  exact ⟨d, by decide, by decide, hrun⟩

end Automaton

end Acceptor
