import Acceptor.Automaton.Construction
import Acceptor.Proofs.Automaton
import Acceptor.Proofs.Success

/-!
# Well-typed rows among the loose ones

`Rows.loose` writes integer states and character symbols as loose values. Construction reads such rows
back as they were (`check_loose`) and no others (`check_eq_ok`), so it succeeds or fails by the four rules
alone (`ofLoose_loose`), an automaton holds exactly what it is made from (`ofLoose_eq_ok_iff`), and the
prediction made from the loose rows is the verdict on the typed ones (`failure?_loose`).
-/

namespace Acceptor

namespace Value

theorem char_beq_char (a b : Char) : (Value.char a == Value.char b) = (a == b) := by
  rw [Bool.eq_iff_iff, beq_iff, beq_iff_eq]
  simp [char, atoms, String.ext_iff]

theorem symbol?_char {c : Char} (h : Text.isBlank c = false) : (Value.char c).symbol? = some c := by
  simp [char, symbol?, h]

theorem eq_char_of_symbol? {v : Value} {c : Char} (h : v.symbol? = some c) : v = .char c := by
  unfold symbol? at h
  split at h
  · next s =>
    split at h
    · next b hs =>
      split at h
      · cases h
      · cases h
        exact congrArg text (String.toList_inj.1 (by simpa using hs))
    · cases h
  · cases h

theorem eq_int_of_stateId? {v : Value} {q : Int} (h : v.stateId? = some q) : v = .int q := by
  unfold stateId? at h
  split at h <;> cases h
  rfl

end Value

@[simp] theorem checkStateId_int (q : Int) : checkStateId (.int q) = .ok q := rfl

theorem checkStateId_eq_ok {v : Value} {q : Int} (h : checkStateId v = .ok q) : v = .int q := by
  unfold checkStateId at h
  split at h <;> cases h
  exact Value.eq_int_of_stateId? ‹_›

theorem checkSymbol_char {c : Char} (h : Text.isBlank c = false) : checkSymbol (.char c) = .ok c := by
  rw [checkSymbol, Value.symbol?_char h]

theorem checkSymbol_eq_ok {v : Value} {c : Char} (h : checkSymbol v = .ok c) : v = .char c := by
  unfold checkSymbol at h
  split at h <;> cases h
  exact Value.eq_char_of_symbol? ‹_›

namespace Rows

/-- One row with its symbols and targets as loose values. -/
abbrev looseRow (row : OrderedMap Char Int) : OrderedMap Value Value :=
  row.rename Value.char_beq_char Value.int

/-- The same rows as loose values. -/
def loose (rows : Rows Int Char) : LooseRows := rows.rename Value.int_beq_int Value.char_beq_char

theorem keys_loose (rows : Rows Int Char) : rows.loose.keys = rows.keys.map Value.int :=
  OrderedMap.keys_rename Value.int_beq_int looseRow rows

theorem symbols_loose (rows : Rows Int Char) : rows.loose.symbols = rows.symbols.map Value.char :=
  symbols_rename _ _ rows

theorem targets_loose (rows : Rows Int Char) : rows.loose.targets = rows.targets.map Value.int :=
  targets_rename _ _ rows

theorem entries_loose (rows : Rows Int Char) :
    rows.loose.entries = rows.entries.map fun e => (Value.int e.1, looseRow e.2) :=
  OrderedMap.entries_rename Value.int_beq_int looseRow rows

end Rows

namespace LooseRows

theorem checkEdge_loose {e : Char × Int} (h : Text.isBlank e.1 = false) :
    checkEdge (Value.char e.1, Value.int e.2) = .ok e := by
  rw [checkEdge, checkSymbol_char h]; rfl

theorem checkRow_loose {q : Int} {row : OrderedMap Char Int} (h : ∀ c ∈ row.keys, Text.isBlank c = false) :
    checkRow (.int q, Rows.looseRow row) = .ok (q, row) := by
  have hrow : (Rows.looseRow row).entries.mapM checkEdge = .ok row.entries := by
    rw [OrderedMap.entries_rename]
    exact mapM_map_ok fun e he => checkEdge_loose (h e.1 (List.mem_map_of_mem he))
  rw [checkRow, hrow]
  show Except.ok (q, OrderedMap.ofList row.entries) = _
  rw [OrderedMap.ofList_entries]

theorem check_loose {rows : Rows Int Char} (h : ∀ c ∈ rows.symbols, Text.isBlank c = false) :
    check rows.loose = .ok rows := by
  have hrows : rows.loose.entries.mapM checkRow = .ok rows.entries := by
    rw [Rows.entries_loose]
    exact mapM_map_ok fun e he => checkRow_loose fun c hc =>
      h c (List.mem_flatMap.2 ⟨e.2, List.mem_map_of_mem he, hc⟩)
  rw [check, hrows]
  show Except.ok (OrderedMap.ofList rows.entries) = _
  rw [OrderedMap.ofList_entries]

theorem checkEdge_eq_ok {edge : Value × Value} {e : Char × Int} (h : checkEdge edge = .ok e) :
    edge = (Value.char e.1, Value.int e.2) := by
  obtain ⟨c, hc, h⟩ := Except.bind_eq_ok_iff.1 h
  obtain ⟨t, ht, h⟩ := Except.bind_eq_ok_iff.1 h
  cases h
  exact Prod.ext (checkSymbol_eq_ok hc) (checkStateId_eq_ok ht)

theorem checkRow_eq_ok {row : Value × OrderedMap Value Value} {r : Int × OrderedMap Char Int}
    (h : checkRow row = .ok r) : row = (.int r.1, Rows.looseRow r.2) := by
  obtain ⟨q, hq, h⟩ := Except.bind_eq_ok_iff.1 h
  obtain ⟨edges, hedges, h⟩ := Except.bind_eq_ok_iff.1 h
  cases h
  exact Prod.ext (checkStateId_eq_ok hq)
    (OrderedMap.eq_rename_ofList Value.char_beq_char (eq_map_of_mapM (fun _ _ => checkEdge_eq_ok) hedges))

/-- Rows that pass the check of types are typed rows, in the same order. -/
theorem check_eq_ok {rows : LooseRows} {typed : Rows Int Char} (h : rows.check = .ok typed) :
    rows = typed.loose := by
  obtain ⟨entries, hentries, h⟩ := Except.bind_eq_ok_iff.1 h
  cases h
  exact OrderedMap.eq_rename_ofList Value.int_beq_int (eq_map_of_mapM (fun _ _ => checkRow_eq_ok) hentries)

/-- Looking up keys only, the prediction is the verdict of the rules. -/
theorem failure?_of_keys {rows : LooseRows} {finals alphabet : List Value}
    (ha : ∀ v ∈ alphabet, v.isKey = true) (ht : ∀ v ∈ rows.targets, v.isKey = true) :
    failure? rows finals alphabet =
      .ok (Acceptor.failure? (.int Automaton.initial) rows finals alphabet) := by
  unfold failure?
  extract_lets found lost
  -- what is not found comes from the alphabet or from the targets
  have hlost : ∀ v, lost = some v → v.isKey = true := by
    intro v hv
    simp only [lost] at hv
    generalize found = f at hv
    split at hv
    · obtain ⟨row, -, hv⟩ := List.mem_flatMap.1 (List.mem_of_head? hv)
      exact ha v (List.mem_of_mem_filter hv)
    · exact ht v (List.mem_of_find?_eq_some hv)
    · cases hv
  rcases Option.eq_none_or_eq_some lost with h | ⟨v, h⟩
  · rw [h]
  · rw [h]
    show (v.checkKey >>= fun _ => pure found) = _
    rw [Value.checkKey, if_pos (hlost v h)]; rfl

theorem failure?_loose (rows : Rows Int Char) (finals : List Int) (alphabet : List Char) :
    failure? rows.loose (finals.map Value.int) (alphabet.map Value.char) =
      .ok (Acceptor.failure? Automaton.initial rows finals alphabet) := by
  rw [failure?_of_keys, Rows.loose, failure?_rename]
  · exact congrArg _ (failure?_congr (by simp) fun _ => Iff.rfl)
  · intro v hv; obtain ⟨c, -, rfl⟩ := List.mem_map.1 hv; rfl
  · intro v hv
    rw [Rows.targets_loose] at hv
    obtain ⟨t, -, rfl⟩ := List.mem_map.1 hv; rfl

end LooseRows

namespace Automaton

theorem ofLoose_eq {rows : LooseRows} {typed : Rows Int Char} (h : rows.check = .ok typed)
    (finals : List Value) :
    ofLoose rows finals = (do
      let finals ← finals.mapM checkStateId
      (ofRows typed finals (LooseRows.isBlank_of_check h)).mapError .invalid) := by
  unfold ofLoose
  split
  · next hf => rw [h] at hf; cases hf
  · next typed' ht =>
    obtain rfl : typed = typed' := by rw [h] at ht; cases ht; rfl
    rfl

theorem ofLoose_loose {rows : Rows Int Char} (h : ∀ c ∈ rows.symbols, Text.isBlank c = false)
    (finals : List Int) :
    ofLoose rows.loose (finals.map Value.int) = (ofRows rows finals h).mapError .invalid := by
  rw [ofLoose_eq (LooseRows.check_loose h), mapM_map_ok fun q _ => checkStateId_int q]; rfl

theorem ofLoose_loose_eq_ok_iff {rows : Rows Int Char} (h : ∀ c ∈ rows.symbols, Text.isBlank c = false)
    {finals : List Int} {d : Automaton} :
    ofLoose rows.loose (finals.map Value.int) = .ok d ↔
      Acceptor.failure? initial rows finals rows.symbols = none ∧
        d.rows = rows ∧ d.finals = ascending finals := by
  have hf : ascending finals = [] ↔ finals = [] := ascending_eq_nil
  rw [ofLoose_loose h, ← failure?_congr hf fun _ => Iff.rfl, ← ofRows_eq_ok_iff h]
  cases ofRows rows finals h <;> simp [Except.mapError]

/-- An automaton holds the rows that it is made from, entry by entry, and the set of the final states. -/
theorem ofLoose_eq_ok_iff {rows : LooseRows} {finals : List Value} {d : Automaton} :
    ofLoose rows finals = .ok d ↔
      rows = d.rows.loose ∧ ∃ ids : List Int, finals = ids.map Value.int ∧ d.finals = ascending ids := by
  constructor
  · intro h
    cases hcheck : rows.check with
    | error fault =>
      unfold ofLoose at h
      split at h
      · cases h
      · next ht => rw [hcheck] at ht; cases ht
    | ok typed =>
      obtain rfl := LooseRows.check_eq_ok hcheck
      obtain ⟨ids, hids, -⟩ := Except.bind_eq_ok_iff.1 ((ofLoose_eq hcheck finals).symm.trans h)
      obtain rfl := eq_map_of_mapM (fun _ _ => checkStateId_eq_ok) hids
      obtain ⟨-, hrows, hfinals⟩ := (ofLoose_loose_eq_ok_iff (LooseRows.isBlank_of_check hcheck)).1 h
      exact ⟨by rw [hrows], ids, rfl, hfinals⟩
  · rintro ⟨rfl, ids, rfl, hfinals⟩
    have hids : d.finals = [] ↔ ids = [] := by rw [hfinals]; exact ascending_eq_nil
    rw [ofLoose_loose_eq_ok_iff d.not_isBlank, ← failure?_congr hids fun _ => Iff.rfl]
    exact ⟨failure?_eq_none_iff.2 d.complete, rfl, hfinals⟩

theorem ofLoose_loose_eq_error_iff {rows : Rows Int Char}
    (h : ∀ c ∈ rows.symbols, Text.isBlank c = false) {finals : List Int} {fault : Fault} :
    ofLoose rows.loose (finals.map Value.int) = .error fault ↔
      ∃ f, fault = .invalid f ∧ Acceptor.failure? initial rows finals rows.symbols = some f := by
  have hf : ascending finals = [] ↔ finals = [] := ascending_eq_nil
  rw [ofLoose_loose h]
  simp only [← failure?_congr hf fun _ => Iff.rfl, ← ofRows_eq_error_iff h]
  cases ofRows rows finals h <;> simp [Except.mapError, eq_comm]

end Automaton

end Acceptor
