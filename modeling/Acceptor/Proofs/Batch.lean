import Acceptor.Analysis.Batch
import Acceptor.Proofs.Table

/-!
# Words in lock step

Moving all words through the table one column at a time does to each of them what moving it alone would
do, whatever the others are (`foldl_step_columns`): behind its end a word is left alone. `Tracks d q? lane`:
the lane stands for the state `q?` that the word has led to so far, or is dead if there is none. Every code
keeps this true (`Tracks.advance`), so the verdicts are those of `accepts`, and a lane that looks something
up is alive on a row of the table and meets a column of it (`acceptsAll_eq_map`).
-/

namespace Acceptor

namespace Table

variable {t : Table} {lane : Lane} {c : Char}

theorem code_of_mem (h : c ∈ t.symbols) : ∃ j : Nat, t.symbols[j]? = some c ∧ t.code c = j := by
  obtain ⟨j, hj⟩ := Option.isSome_iff_exists.1 (List.isSome_idxOf?.2 h)
  obtain ⟨hlt, hc, -⟩ := List.idxOf?_eq_some_iff.1 hj
  exact ⟨j, List.getElem?_eq_some_iff.2 ⟨hlt, hc⟩, by rw [code, hj]⟩

theorem code_of_notMem (h : c ∉ t.symbols) : t.code c = foreign := by
  rw [code, List.idxOf?_eq_none_iff.2 h]

theorem place?_natCast {n i : Nat} (h : i < n) : place? n i = some i := by
  have hi : ¬ (i : Int) < 0 := by omega
  rw [place?, if_neg hi, if_pos ⟨by omega, by omega⟩]; rfl

theorem lookUp?_natCast {row column : Nat} (hr : row < t.height) (hc : column < t.width) :
    t.lookUp? row column = t.cell? row column := by
  rw [lookUp?, place?_natCast hr, place?_natCast hc]; rfl

theorem advance_ended (t : Table) (lane : Lane) : t.advance lane ended = lane := by
  obtain ⟨row, alive⟩ := lane
  cases alive <;> rfl

/-- Each word goes through its own codes; the rows of codes are padded to `n` columns. -/
theorem foldl_step_columns (t : Table) {n : Nat} {ps : List (Lane × List Int)}
    (h : ∀ p ∈ ps, p.2.length ≤ n) :
    (columns n (ps.map Prod.snd)).foldl t.step (ps.map Prod.fst) =
      ps.map fun p => p.2.foldl t.advance p.1 := by
  -- on the number of columns left: one step takes the first code of every word that has one
  induction n generalizing ps with
  | zero =>
    refine List.map_congr_left fun p hp => ?_
    rw [List.eq_nil_of_length_eq_zero (Nat.le_zero.1 (h p hp))]; rfl
  | succ n ih =>
    let next (p : Lane × List Int) : Lane × List Int := (t.advance p.1 (p.2.headD ended), p.2.tail)
    have hstep : t.step (ps.map Prod.fst) ((ps.map Prod.snd).map (·.headD ended)) =
        (ps.map next).map Prod.fst := by
      rw [step, List.map_map, List.zipWith_map, List.zipWith_self, List.map_map]; rfl
    have htail : (ps.map Prod.snd).map List.tail = (ps.map next).map Prod.snd := by
      rw [List.map_map, List.map_map]; rfl
    rw [columns, List.foldl_cons, hstep, htail, ih, List.map_map]
    · refine List.map_congr_left fun p _ => ?_
      obtain ⟨lane, _ | ⟨code, row⟩⟩ := p
      · exact advance_ended t lane
      · rfl
    · intro q hq
      obtain ⟨p, hp, rfl⟩ := List.mem_map.1 hq
      have hlen := h p hp
      show p.2.tail.length ≤ n
      rw [List.length_tail]; omega

theorem finish_eq (t : Table) (words : List String) :
    t.finish words = words.map fun w => (w.toList.map t.code).foldl t.advance t.start := by
  let ps := words.map fun w => (t.start, w.toList.map t.code)
  have hfst : (words.map fun _ => t.start) = ps.map Prod.fst := by rw [List.map_map]; rfl
  have hsnd : (words.map fun w => w.toList.map t.code) = ps.map Prod.snd := by rw [List.map_map]; rfl
  rw [finish, codeColumns, hfst, hsnd, foldl_step_columns, List.map_map]
  · rfl
  · intro p hp
    exact List.le_max?_getD_of_mem (List.mem_map_of_mem (List.mem_map_of_mem hp))

/-- A code that can stand in a column. -/
def IsCode (t : Table) (code : Int) : Prop := code = ended ∨ ∃ c, code = t.code c

theorem isCode_of_mem_columns {n : Nat} {rows : List (List Int)}
    (h : ∀ row ∈ rows, ∀ code ∈ row, t.IsCode code) :
    ∀ codes ∈ columns n rows, ∀ code ∈ codes, t.IsCode code := by
  induction n generalizing rows with
  | zero => intro codes hc; cases hc
  | succ n ih =>
    intro codes hc code hm
    rcases List.mem_cons.1 hc with rfl | hc
    · obtain ⟨row, hrow, rfl⟩ := List.mem_map.1 hm
      cases row with
      | nil => exact .inl rfl
      | cons code row => exact h _ hrow code List.mem_cons_self
    · refine ih (fun row hrow code hcode => ?_) codes hc code hm
      obtain ⟨row', hrow', rfl⟩ := List.mem_map.1 hrow
      exact h row' hrow' code (List.mem_of_mem_tail hcode)

theorem isCode_of_mem_codeColumns {words : List String} :
    ∀ codes ∈ t.codeColumns words, ∀ code ∈ codes, t.IsCode code := by
  refine isCode_of_mem_columns fun row hrow code hcode => ?_
  obtain ⟨w, -, rfl⟩ := List.mem_map.1 hrow
  obtain ⟨c, -, rfl⟩ := List.mem_map.1 hcode
  exact .inr ⟨c, rfl⟩

/-- All that the lanes look up on their way through the columns, in lock step. -/
def lookups (t : Table) : List Lane → List (List Int) → List (Nat × Int)
  | _, [] => []
  | lanes, codes :: columns =>
    (lanes.zip codes).filterMap (fun p => p.1.lookup? p.2) ++ t.lookups (t.step lanes codes) columns

end Table

namespace Automaton

open Table

/-- The lane of a word that has led to `q?`. -/
inductive Tracks (d : Automaton) : Option Int → Lane → Prop
  | alive {q : Int} {row : Nat} (h : d.states[row]? = some q) : Tracks d (some q) ⟨row, true⟩
  | dead {row : Nat} (h : row < d.states.length) : Tracks d none ⟨row, false⟩

/-- Row and column stand in the table, counted from the front, and so does the target. -/
def InTable (d : Automaton) (row : Nat) (column : Int) : Prop :=
  row < d.states.length ∧ 0 ≤ column ∧ column < d.alphabet.length ∧
    (d.table.lookUp? row column).isSome = true

variable {d : Automaton} {q? : Option Int} {lane : Lane}

/-- On a symbol of the alphabet a living lane looks up the row of the target. -/
theorem exists_lookUp? {q : Int} {c : Char} {row : Nat} (hq : d.states[row]? = some q)
    (hc : c ∈ d.alphabet) :
    ∃ (j : Nat) (t : Int), d.table.code c = j ∧ j < d.alphabet.length ∧ d.target? q c = some t ∧
      d.rows.contains t = true ∧ d.table.lookUp? row j = some (d.states.idxOf t) := by
  obtain ⟨j, hj, hcode⟩ := Table.code_of_mem (t := d.table) hc
  obtain ⟨t, ht, hrow, hcell⟩ := cell?_table hq hj
  obtain ⟨hjlt, -⟩ := List.getElem?_eq_some_iff.1 hj
  obtain ⟨hrlt, -⟩ := List.getElem?_eq_some_iff.1 hq
  exact ⟨j, t, hcode, hjlt, ht, hrow, (lookUp?_natCast hrlt hjlt).trans hcell⟩

namespace Tracks

theorem row_lt (h : Tracks d q? lane) : lane.row < d.states.length := by
  cases h with
  | alive h => exact (List.getElem?_eq_some_iff.1 h).1
  | dead h => exact h

theorem start (d : Automaton) : Tracks d (some initial) d.table.start := .alive d.getElem?_initialRow

theorem advance (h : Tracks d q? lane) (c : Char) :
    Tracks d (q?.bind (d.target? · c)) (d.table.advance lane (d.table.code c)) := by
  cases h with
  | @alive q row hq =>
    by_cases hc : c ∈ d.alphabet
    · obtain ⟨j, t, hcode, -, ht, hrow, hlook⟩ := exists_lookUp? hq hc
      have hadvance : d.table.advance ⟨row, true⟩ j = ⟨d.states.idxOf t, true⟩ := by
        have hj : (j : Int) != foreign := by simp [foreign]
        simp [Table.advance, Lane.lookup?, hj, hlook]
      rw [Option.bind_some, ht, hcode, hadvance]
      exact .alive (getElem?_idxOf_states hrow)
    · have ht : d.target? q c = none := by
        rw [Option.eq_none_iff_forall_ne_some]
        exact fun t ht => hc (mem_alphabet_of_target? ht)
      rw [Option.bind_some, ht, code_of_notMem (t := d.table) hc]
      exact .dead (List.getElem?_eq_some_iff.1 hq).1
  | dead hrow => exact .dead hrow

theorem foldl_advance (h : Tracks d q? lane) (w : List Char) :
    Tracks d (q?.bind (d.runFrom · w)) ((w.map d.table.code).foldl d.table.advance lane) := by
  induction w generalizing q? lane with
  | nil => cases q? <;> exact h
  | cons c w ih =>
    have hw := ih (h.advance c)
    rw [Option.bind_assoc] at hw
    exact hw

theorem verdict (h : Tracks d q? lane) : (lane.alive && d.table.isFinal lane.row) = q?.any d.finals.contains := by
  cases h with
  | alive h => exact isFinal_table h
  | dead h => rfl

theorem advance_of_isCode (h : Tracks d q? lane) {code : Int} (hcode : d.table.IsCode code) :
    ∃ p?, Tracks d p? (d.table.advance lane code) := by
  rcases hcode with rfl | ⟨c, rfl⟩
  · exact ⟨q?, (advance_ended d.table lane).symm ▸ h⟩
  · exact ⟨_, h.advance c⟩

theorem inTable (h : Tracks d q? lane) {code : Int} (hcode : d.table.IsCode code) {p : Nat × Int}
    (hp : lane.lookup? code = some p) : d.InTable p.1 p.2 := by
  cases h with
  | dead h => cases hp
  | alive hq =>
    rcases hcode with rfl | ⟨c, rfl⟩
    · cases hp
    · by_cases hc : c ∈ d.alphabet
      · obtain ⟨j, t, hj, hlt, -, -, hlook⟩ := exists_lookUp? hq hc
        rw [hj, Lane.lookup?] at hp
        split at hp
        · cases hp
          exact ⟨(List.getElem?_eq_some_iff.1 hq).1, by omega, by simpa using hlt, by rw [hlook]; rfl⟩
        · cases hp
      · rw [code_of_notMem (t := d.table) hc] at hp; cases hp

end Tracks

theorem inTable_of_mem_lookups {lanes : List Lane} {columns : List (List Int)}
    (hlanes : ∀ lane ∈ lanes, ∃ q?, Tracks d q? lane)
    (hcolumns : ∀ codes ∈ columns, ∀ code ∈ codes, d.table.IsCode code) :
    ∀ p ∈ d.table.lookups lanes columns, d.InTable p.1 p.2 := by
  -- every step leaves lanes that track something, which is all that a lookup needs
  induction columns generalizing lanes with
  | nil => intro p hp; cases hp
  | cons codes columns ih =>
    have hcodes := hcolumns codes List.mem_cons_self
    intro p hp
    rcases List.mem_append.1 hp with hp | hp
    · obtain ⟨⟨lane, code⟩, hmem, hp⟩ := List.mem_filterMap.1 hp
      obtain ⟨hlane, hcode⟩ := List.of_mem_zip hmem
      obtain ⟨q?, h⟩ := hlanes lane hlane
      exact h.inTable (hcodes code hcode) hp
    · refine ih (fun lane hlane => ?_) (fun codes hc => hcolumns codes (List.mem_cons_of_mem _ hc)) p hp
      rw [step, ← List.map_uncurry_zip_eq_zipWith] at hlane
      obtain ⟨⟨lane', code⟩, hmem, rfl⟩ := List.mem_map.1 hlane
      obtain ⟨hlane', hcode⟩ := List.of_mem_zip hmem
      obtain ⟨q?, h⟩ := hlanes lane' hlane'
      exact h.advance_of_isCode (hcodes code hcode)

theorem tracks_run (d : Automaton) (w : String) :
    Tracks d (d.run w) ((w.toList.map d.table.code).foldl d.table.advance d.table.start) :=
  (Tracks.start d).foldl_advance w.toList

theorem acceptsAll_eq (d : Automaton) (words : List String) : d.acceptsAll words = words.map d.accepts := by
  rw [acceptsAll, Table.acceptsAll, finish_eq, List.map_map]
  exact List.map_congr_left fun w _ => (d.tracks_run w).verdict

/-- Matching in lock step gives each word its own verdict, and looks up only what is in the table. -/
theorem acceptsAll_eq_map (d : Automaton) (words : List String) :
    d.acceptsAll words = words.map d.accepts ∧
    (∀ p ∈ d.table.lookups (words.map fun _ => d.table.start) (d.table.codeColumns words),
      d.InTable p.1 p.2) ∧
    ∀ lane ∈ d.table.finish words, lane.row < d.table.finalRows.length := by
  refine ⟨d.acceptsAll_eq words, inTable_of_mem_lookups (fun lane hlane => ?_) isCode_of_mem_codeColumns,
    fun lane hlane => ?_⟩
  · obtain ⟨w, -, rfl⟩ := List.mem_map.1 hlane
    exact ⟨_, Tracks.start d⟩
  · rw [finish_eq] at hlane
    obtain ⟨w, -, rfl⟩ := List.mem_map.1 hlane
    show _ < (d.states.map d.finals.contains).length
    rw [List.length_map]
    exact (d.tracks_run w).row_lt

end Automaton

end Acceptor
