import Acceptor.Proofs.Batch
import Acceptor.Proofs.Loose
import Acceptor.Proofs.Reachability
import Mathlib.Data.Set.List

/-!
# Names of states and symbols

`Renamed f g d e`: wherever `d` leads from a state with a symbol, `e` leads between the renamed states with
the renamed symbol, and `e` has no other symbols. A renamed word then leads to the renamed state
(`Renamed.runFrom`), so nothing that is asked about words depends on names, although other names come in
another order and so lay the table out anew. Renaming what an automaton is made from makes the renamed one,
or breaks the same rule (`ofLoose_rename`).
-/

namespace Acceptor

namespace Automaton

structure Renamed (f : Int → Int) (g : Char → Char) (d e : Automaton) : Prop where
  initial : f initial = initial
  target? : ∀ q c, e.target? (f q) (g c) = (d.target? q c).map f
  alphabet : ∀ b ∈ e.alphabet, ∃ c, g c = b
  finals : ∀ q, f q ∈ e.finals ↔ q ∈ d.finals

namespace Renamed

variable {f : Int → Int} {g : Char → Char} {d e : Automaton}

theorem runFrom (h : Renamed f g d e) (q : Int) (w : List Char) :
    e.runFrom (f q) (w.map g) = (d.runFrom q w).map f := by
  induction w generalizing q with
  | nil => rfl
  | cons c w ih =>
    rw [List.map_cons, Automaton.runFrom, Automaton.runFrom, h.target?]
    cases d.target? q c with
    | none => rfl
    | some t => exact ih t

theorem runFrom_initial (h : Renamed f g d e) (w : List Char) :
    e.runFrom Automaton.initial (w.map g) = (d.runFrom Automaton.initial w).map f := by
  have hw := h.runFrom Automaton.initial w
  rwa [h.initial] at hw

theorem run (h : Renamed f g d e) (w : String) : e.run (w.map g) = (d.run w).map f := by
  rw [Automaton.run, String.toList_map]
  exact h.runFrom_initial w.toList

theorem accepts (h : Renamed f g d e) (w : String) : e.accepts (w.map g) = d.accepts w := by
  rw [Automaton.accepts, Automaton.accepts, h.run]
  cases d.run w with
  | none => rfl
  | some q =>
    show e.finals.contains (f q) = d.finals.contains q
    rw [Bool.eq_iff_iff, List.contains_iff_mem, List.contains_iff_mem, h.finals]

theorem acceptsAll (h : Renamed f g d e) (words : List String) :
    e.acceptsAll (words.map fun w => w.map g) = d.acceptsAll words := by
  rw [acceptsAll_eq, acceptsAll_eq, List.map_map]
  exact List.map_congr_left fun w _ => h.accepts w

/-- Every word that leads somewhere is a renamed one. -/
theorem exists_eq_map (h : Renamed f g d e) {w : List Char} {q p : Int} (hw : e.runFrom q w = some p) :
    ∃ u : List Char, u.map g = w := by
  have hrange : w ∈ Set.range (List.map g) := by
    rw [Set.range_list_map]
    exact fun b hb => h.alphabet b (mem_alphabet_of_runFrom hw b hb)
  exact hrange

theorem mem_reachable_iff (h : Renamed f g d e) (p : Int) : p ∈ e.reachable ↔ ∃ q ∈ d.reachable, f q = p := by
  simp only [mem_reachable]
  constructor
  · rintro ⟨w, hw⟩
    obtain ⟨u, rfl⟩ := h.exists_eq_map hw
    rw [h.runFrom_initial] at hw
    obtain ⟨q, hq, rfl⟩ := Option.map_eq_some_iff.1 hw
    exact ⟨q, ⟨u, hq⟩, rfl⟩
  · rintro ⟨q, ⟨u, hu⟩, rfl⟩
    exact ⟨u.map g, by rw [h.runFrom_initial, hu]; rfl⟩

end Renamed

section

variable {f : Int → Int} {g : Char → Char} (hf : Function.Injective f) (hg : Function.Injective g)

/-- The rows with other names. -/
abbrev renamedRows (rows : Rows Int Char) : Rows Int Char :=
  rows.rename (fun _ _ => hf.beq_eq) (fun _ _ => hg.beq_eq)

theorem isBlank_renamedRows (hblank : ∀ c, Text.isBlank c = false → Text.isBlank (g c) = false)
    {rows : Rows Int Char} (hrows : ∀ c ∈ rows.symbols, Text.isBlank c = false) :
    ∀ b ∈ (renamedRows hf hg rows).symbols, Text.isBlank b = false := by
  intro b hb
  rw [Rows.symbols_rename] at hb
  obtain ⟨c, hc, rfl⟩ := List.mem_map.1 hb
  exact hblank c (hrows c hc)

theorem failure?_renamedRows (h0 : f initial = initial) (rows : Rows Int Char) (finals : List Int) :
    failure? initial (renamedRows hf hg rows) (finals.map f) (renamedRows hf hg rows).symbols =
      failure? initial rows finals rows.symbols := by
  -- the alphabet that the rules look at is renamed with the rows
  have hrules : failure? initial rows finals rows.symbols = failure? (f initial) (renamedRows hf hg rows)
      (finals.map f) (rows.symbols.map g) :=
    (failure?_congr List.map_eq_nil_iff.symm fun _ => Iff.rfl).trans
      (failure?_rename (fun _ _ => hf.beq_eq) (fun _ _ => hg.beq_eq) _ _).symm
  rw [hrules, h0, Rows.symbols_rename]

theorem renamed_of_rows (h0 : f initial = initial) {rows : Rows Int Char} {finals : List Int}
    {d e : Automaton} (hd : d.rows = rows) (hdf : d.finals = ascending finals)
    (he : e.rows = renamedRows hf hg rows) (hef : e.finals = ascending (finals.map f)) : Renamed f g d e where
  initial := h0
  target? q c := by
    show e.rows.target? (f q) (g c) = (d.rows.target? q c).map f
    rw [hd, he, Rows.target?_rename]
  alphabet b hb := by
    rw [Automaton.alphabet, mem_ascending, he, Rows.symbols_rename] at hb
    obtain ⟨c, -, hc⟩ := List.mem_map.1 hb
    exact ⟨c, hc⟩
  finals q := by rw [hdf, hef, mem_ascending, mem_ascending, List.mem_map_of_injective hf]

end

/-- Well-typed rows and final states under other names make an automaton if they did before, and fail for the
same reason otherwise; the automaton does the same to renamed words, up to names. -/
theorem ofLoose_rename {f : Int → Int} {g : Char → Char} (hf : Function.Injective f) (h0 : f 0 = 0)
    (hg : Function.Injective g) (hblank : ∀ c, Text.isBlank c = false → Text.isBlank (g c) = false)
    (rows : Rows Int Char) (hrows : ∀ c ∈ rows.symbols, Text.isBlank c = false) (finals : List Int) :
    let made := ofLoose rows.loose (finals.map Value.int)
    let made' := ofLoose (renamedRows hf hg rows).loose ((finals.map f).map Value.int)
    ((∃ e, made' = .ok e) ↔ ∃ d, made = .ok d) ∧
    (∀ fault, made' = .error fault ↔ made = .error fault) ∧
    (∀ fault, made = .error fault → ∃ reason, fault = .invalid reason) ∧
    ∀ d e, made = .ok d → made' = .ok e →
      (∀ w, e.accepts (w.map g) = d.accepts w) ∧
      (∀ words, e.acceptsAll (words.map fun w => w.map g) = d.acceptsAll words) ∧
      (∀ w, e.run (w.map g) = (d.run w).map f) ∧
      ∀ p, p ∈ e.reachable ↔ ∃ q ∈ d.reachable, f q = p := by
  intro made made'
  have hrows' := isBlank_renamedRows hf hg hblank hrows
  have hrules := failure?_renamedRows hf hg h0 rows finals
  have herror : ∀ fault, made' = .error fault ↔ made = .error fault := fun fault => by
    rw [ofLoose_loose_eq_error_iff hrows', ofLoose_loose_eq_error_iff hrows, hrules]
  have hok (m : Except Fault Automaton) : (∃ d, m = .ok d) ↔ ∀ fault, m ≠ .error fault := by
    cases m <;> simp
  refine ⟨?_, herror, fun fault hfault => ?_, fun d e hd he => ?_⟩
  · rw [hok, hok]
    exact forall_congr' fun fault => not_congr (herror fault)
  · obtain ⟨reason, hreason, -⟩ := (ofLoose_loose_eq_error_iff hrows).1 hfault
    exact ⟨reason, hreason⟩
  · obtain ⟨-, hdrows, hdfinals⟩ := (ofLoose_loose_eq_ok_iff hrows).1 hd
    obtain ⟨-, herows, hefinals⟩ := (ofLoose_loose_eq_ok_iff hrows').1 he
    have h : Renamed f g d e := renamed_of_rows hf hg h0 hdrows hdfinals herows hefinals
    exact ⟨h.accepts, h.acceptsAll, h.run, h.mem_reachable_iff⟩

/-- Negative states and swapped symbols come in the opposite order; without final states there is no
automaton under either names. -/
theorem ofLoose_rename_reversed :
    ∃ (hf : Function.Injective fun n : Int => -n) (hg : Function.Injective (Equiv.swap 'a' 'b'))
      (rows : Rows Int Char) (d e : Automaton),
      ofLoose rows.loose [.int 1] = .ok d ∧ d.states = [0, 1, 7] ∧ d.run "bba" = some 1 ∧
      ofLoose (renamedRows hf hg rows).loose [.int (-1)] = .ok e ∧ e.states = [-7, -1, 0] ∧
      e.run "aab" = some (-1) ∧ e.acceptsAll ["aab", "a"] = [true, false] ∧
      -1 ∈ e.reachable ∧ -7 ∉ e.reachable ∧
      ofLoose (renamedRows hf hg rows).loose [] = .error (.invalid .noFinalStates) := by
  have hf : Function.Injective fun n : Int => -n := fun _ _ h => Int.neg_inj.1 h
  have hg : Function.Injective (Equiv.swap 'a' 'b') := (Equiv.swap 'a' 'b').injective
  have hblank : ∀ c, Text.isBlank c = false → Text.isBlank (Equiv.swap 'a' 'b' c) = false := by
    intro c hc
    rw [Equiv.swap_apply_def]
    split
    · decide
    · split
      · decide
      · exact hc
  let row : OrderedMap Char Int := .ofList [('a', 1), ('b', 0)]
  let rows : Rows Int Char := .ofList [(0, row), (1, row), (7, row)]
  let d : Automaton := ⟨rows, [1], failure?_eq_none_iff.1 rfl, by decide, isBlank_of_any rfl⟩
  have hrows := d.not_isBlank
  have hd : ofLoose rows.loose [.int 1] = .ok d := ofLoose_eq_ok_iff.2 ⟨rfl, [1], rfl, rfl⟩
  have hreachable : d.reachable = [0, 1] := by decide
  have hbba : "bba".map (Equiv.swap 'a' 'b') = "aab" :=
    String.toList_inj.1 (by rw [String.toList_map]; decide)
  have hb : "b".map (Equiv.swap 'a' 'b') = "a" := String.toList_inj.1 (by rw [String.toList_map]; decide)
  obtain ⟨hok, -, -, hsame⟩ := ofLoose_rename hf rfl hg hblank rows hrows [1]
  obtain ⟨-, herror, -⟩ := ofLoose_rename hf rfl hg hblank rows hrows []
  obtain ⟨e, he⟩ := hok.2 ⟨d, hd⟩
  obtain ⟨-, hverdicts, hruns, hreach⟩ := hsame d e hd he
  refine ⟨hf, hg, rows, d, e, hd, rfl, rfl, he, ?_, ?_, ?_, ?_, ?_, ?_⟩
  · have hrows' := isBlank_renamedRows hf hg hblank hrows
    obtain ⟨-, herows, -⟩ := (ofLoose_loose_eq_ok_iff hrows').1 he
    rw [states, herows, renamedRows, Rows.rename, OrderedMap.keys_rename]
    decide
  · rw [← hbba, hruns]; rfl
  · have hwords := hverdicts ["bba", "b"]
    rw [List.map_cons, List.map_singleton, hbba, hb] at hwords
    rw [hwords, acceptsAll_eq]; rfl
  · exact (hreach _).2 ⟨1, by rw [hreachable]; decide, rfl⟩
  · rw [hreach, hreachable]; decide
  · exact (herror _).2 rfl

end Automaton

end Acceptor
