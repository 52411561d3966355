import Acceptor.Proofs.Limits
import Acceptor.Proofs.Loose

/-!
# The first value of the wrong type

Construction demands of every state, target and final state that it is an integer, and of every symbol that it is
a single character that is not blank. It looks at them in the order of `LooseRows.demands`, and the fault is that
of the first demand that is not met (`Guarded`, `guarded_check`), even if a rule of automata is broken as well. The
fault names the value, so a value that cannot be written meets a limit in its place. Only where all demands are met
is there a verdict, and an automaton if no rule is broken (`Construction`, `construct_eq_iff_construction`).
-/

namespace Acceptor

def Value.IsStateId (v : Value) : Prop := ∃ q, v = .int q

def Value.IsSymbol (v : Value) : Prop := ∃ c, Text.isBlank c = false ∧ v = .char c

/-- What is asked of one value. -/
inductive Demand where
  | stateId (v : Value)
  | symbol (v : Value)

namespace Demand

def Met : Demand → Prop
  | stateId v => v.IsStateId
  | symbol v => v.IsSymbol

def value : Demand → Value
  | stateId v => v
  | symbol v => v

/-- The fault that names the value. -/
def fault : Demand → Fault
  | stateId v => .notStateId v
  | symbol v => .notSymbol v

/-- The value is written before the fault is raised. -/
theorem raised_fault (k : Demand) (room : Nat) :
    k.fault.raised room = match k.value.limit? room with
      | some limit => .unwritable limit
      | none => k.fault := by
  cases k <;> rfl

end Demand

/-- All demands before this one are met, and this one is not. -/
inductive FirstUnmet : List Demand → Demand → Prop
  | here {k : Demand} {rest : List Demand} (h : ¬ k.Met) : FirstUnmet (k :: rest) k
  | later {first k : Demand} {rest : List Demand} (h : first.Met) (hrest : FirstUnmet rest k) :
    FirstUnmet (first :: rest) k

variable {α β : Type} {asked more : List Demand} {k : Demand} {v : Value}

theorem firstUnmet_append :
    FirstUnmet (asked ++ more) k ↔
      FirstUnmet asked k ∨ (∀ l ∈ asked, l.Met) ∧ FirstUnmet more k := by
  induction asked with
  | nil =>
    constructor
    · intro h; exact .inr ⟨fun _ hl => absurd hl List.not_mem_nil, h⟩
    · rintro (h | ⟨-, h⟩)
      · cases h
      · exact h
  | cons first rest ih =>
    rw [List.forall_mem_cons]
    constructor
    · intro h
      cases h with
      | here h => exact .inl (.here h)
      | later h hrest =>
        rcases ih.1 hrest with hrest | ⟨hall, hmore⟩
        · exact .inl (.later h hrest)
        · exact .inr ⟨⟨h, hall⟩, hmore⟩
    · rintro (h | ⟨⟨h, hall⟩, hmore⟩)
      · cases h with
        | here h => exact .here h
        | later h hrest => exact .later h (ih.2 (.inl hrest))
      · exact .later h (ih.2 (.inr ⟨hall, hmore⟩))

theorem exists_firstUnmet_iff : (∃ k, FirstUnmet asked k) ↔ ¬ ∀ l ∈ asked, l.Met := by
  induction asked with
  | nil => exact iff_of_false (fun ⟨_, h⟩ => by cases h) fun h => h fun _ hl => absurd hl List.not_mem_nil
  | cons first rest ih =>
    rw [List.forall_mem_cons, Classical.not_and_iff_not_or_not, ← ih]
    constructor
    · rintro ⟨k, h⟩
      cases h with
      | here h => exact .inl h
      | later _ hrest => exact .inr ⟨k, hrest⟩
    · rintro (h | ⟨k, hrest⟩)
      · exact ⟨first, .here h⟩
      · by_cases hfirst : first.Met
        · exact ⟨k, .later hfirst hrest⟩
        · exact ⟨first, .here hfirst⟩

theorem FirstUnmet.mem (h : FirstUnmet asked k) : k ∈ asked := by
  induction h with
  | here => exact List.mem_cons_self
  | later _ _ ih => exact List.mem_cons_of_mem _ ih

/-- The step fails exactly where a demand is not met, with the fault of the first one. -/
def Guarded (asked : List Demand) (x : Except Fault α) : Prop :=
  ∀ fault, x = .error fault ↔ ∃ k, FirstUnmet asked k ∧ fault = k.fault

namespace Guarded

variable {x : Except Fault α}

theorem exists_ok_iff (hx : Guarded asked x) : (∃ a, x = .ok a) ↔ ∀ l ∈ asked, l.Met := by
  rw [← not_iff_not, ← exists_firstUnmet_iff]
  cases x with
  | error fault =>
    obtain ⟨k, hk, -⟩ := (hx fault).1 rfl
    exact iff_of_true (fun ⟨_, h⟩ => by cases h) ⟨k, hk⟩
  | ok a =>
    refine iff_of_false (fun h => h ⟨a, rfl⟩) fun ⟨k, hk⟩ => ?_
    cases (hx k.fault).2 ⟨k, hk, rfl⟩

theorem ok (a : α) : Guarded [] (.ok a) := fun _ =>
  iff_of_false (fun h => by cases h) fun ⟨_, h, _⟩ => by cases h

theorem single (hmet : k.Met → ∃ a, x = .ok a) (hno : ¬ k.Met → x = .error k.fault) : Guarded [k] x := by
  intro fault
  by_cases h : k.Met
  · obtain ⟨a, rfl⟩ := hmet h
    refine iff_of_false (fun h => by cases h) fun ⟨l, hl, _⟩ => ?_
    cases hl with
    | here hl => exact hl h
    | later _ hl => cases hl
  · rw [hno h]
    constructor
    · intro hfault; cases hfault; exact ⟨k, .here h, rfl⟩
    · rintro ⟨l, hl, rfl⟩
      cases hl with
      | here => rfl
      | later hk => exact absurd hk h

/-- A step behind another is reached if the demands of the first are met. -/
theorem bind {f : α → Except Fault β} (hx : Guarded asked x) (hf : ∀ a, Guarded more (f a)) :
    Guarded (asked ++ more) (x >>= f) := by
  intro fault
  simp only [Except.bind_eq_error_iff, firstUnmet_append]
  constructor
  · rintro (h | ⟨a, ha, h⟩)
    · obtain ⟨k, hk, rfl⟩ := (hx fault).1 h
      exact ⟨k, .inl hk, rfl⟩
    · obtain ⟨k, hk, rfl⟩ := (hf a fault).1 h
      exact ⟨k, .inr ⟨hx.exists_ok_iff.1 ⟨a, ha⟩, hk⟩, rfl⟩
  · rintro ⟨k, hk | ⟨hmet, hk⟩, rfl⟩
    · exact .inl ((hx _).2 ⟨k, hk, rfl⟩)
    · obtain ⟨a, ha⟩ := hx.exists_ok_iff.2 hmet
      exact .inr ⟨a, ha, (hf a _).2 ⟨k, hk, rfl⟩⟩

theorem map (hx : Guarded asked x) (f : α → β) : Guarded asked (x >>= fun a => .ok (f a)) := by
  rw [← List.append_nil asked]
  exact hx.bind fun a => .ok (f a)

theorem mapM {f : α → Except Fault β} {g : α → List Demand} (h : ∀ a, Guarded (g a) (f a)) (l : List α) :
    Guarded (l.flatMap g) (l.mapM f) := by
  induction l with
  | nil => exact .ok []
  | cons a l ih =>
    rw [List.mapM_cons, List.flatMap_cons]
    exact (h a).bind fun b => ih.map (b :: ·)

end Guarded

theorem guarded_checkStateId (v : Value) : Guarded [.stateId v] (checkStateId v) := by
  refine .single ?_ fun hno => ?_
  · rintro ⟨q, rfl⟩; exact ⟨q, rfl⟩
  · unfold checkStateId
    split
    · next q hq => exact absurd ⟨q, Value.eq_int_of_stateId? hq⟩ hno
    · rfl

theorem guarded_checkSymbol (v : Value) : Guarded [.symbol v] (checkSymbol v) := by
  refine .single ?_ fun hno => ?_
  · rintro ⟨c, hc, rfl⟩; exact ⟨c, checkSymbol_char hc⟩
  · unfold checkSymbol
    split
    · next c hc => exact absurd ⟨c, Value.isBlank_of_symbol? hc, Value.eq_char_of_symbol? hc⟩ hno
    · rfl

namespace LooseRows

def edgeDemands (edge : Value × Value) : List Demand := [.symbol edge.1, .stateId edge.2]

def rowDemands (row : Value × OrderedMap Value Value) : List Demand :=
  .stateId row.1 :: row.2.entries.flatMap edgeDemands

/-- What construction looks at, in this order: each state, then its edges, the symbol before the target, and the
final states last. -/
def demands (rows : LooseRows) (finals : List Value) : List Demand :=
  rows.entries.flatMap rowDemands ++ finals.map .stateId

/-- Every value has its type. -/
structure WellTyped (rows : LooseRows) (finals : List Value) : Prop where
  states : ∀ v ∈ rows.keys, v.IsStateId
  symbols : ∀ v ∈ rows.symbols, v.IsSymbol
  targets : ∀ v ∈ rows.targets, v.IsStateId
  finals : ∀ v ∈ finals, v.IsStateId

variable {rows : LooseRows} {finals : List Value}

theorem guarded_checkEdge (edge : Value × Value) : Guarded (edgeDemands edge) (checkEdge edge) :=
  (guarded_checkSymbol edge.1).bind fun c => (guarded_checkStateId edge.2).map fun t => (c, t)

theorem guarded_checkRow (row : Value × OrderedMap Value Value) : Guarded (rowDemands row) (checkRow row) :=
  (guarded_checkStateId row.1).bind fun q =>
    (Guarded.mapM guarded_checkEdge row.2.entries).map fun edges => (q, OrderedMap.ofList edges)

theorem guarded_check (rows : LooseRows) : Guarded (rows.entries.flatMap rowDemands) rows.check :=
  (Guarded.mapM guarded_checkRow rows.entries).map OrderedMap.ofList

theorem guarded_finals (finals : List Value) : Guarded (finals.map .stateId) (finals.mapM checkStateId) := by
  rw [List.map_eq_flatMap]
  exact Guarded.mapM guarded_checkStateId finals

theorem symbol_mem_demands : .symbol v ∈ rows.demands finals ↔ v ∈ rows.symbols := by
  rw [Rows.symbols, OrderedMap.values, List.flatMap_map]
  simp [demands, rowDemands, edgeDemands, OrderedMap.keys]

theorem stateId_mem_demands :
    .stateId v ∈ rows.demands finals ↔ v ∈ rows.keys ∨ v ∈ rows.targets ∨ v ∈ finals := by
  rw [Rows.targets, OrderedMap.values, List.flatMap_map]
  simp [demands, rowDemands, edgeDemands, OrderedMap.keys, OrderedMap.values, exists_or, or_assoc, and_or_left]

theorem wellTyped_iff : WellTyped rows finals ↔ ∀ k ∈ rows.demands finals, k.Met := by
  constructor
  · intro h k hk
    cases k with
    | symbol v => exact h.symbols v (symbol_mem_demands.1 hk)
    | stateId v =>
      rcases stateId_mem_demands.1 hk with hv | hv | hv
      · exact h.states v hv
      · exact h.targets v hv
      · exact h.finals v hv
  · intro h
    exact ⟨fun v hv => h (.stateId v) (stateId_mem_demands.2 (.inl hv)),
      fun v hv => h (.symbol v) (symbol_mem_demands.2 hv),
      fun v hv => h (.stateId v) (stateId_mem_demands.2 (.inr (.inl hv))),
      fun v hv => h (.stateId v) (stateId_mem_demands.2 (.inr (.inr hv)))⟩

/-- Well-typed rows are typed rows, written as loose values. -/
theorem WellTyped.exists_loose (h : WellTyped rows finals) :
    ∃ (typed : Rows Int Char) (ids : List Int), (∀ c ∈ typed.symbols, Text.isBlank c = false) ∧
      rows = typed.loose ∧ finals = ids.map .int := by
  obtain ⟨hrows, hfinals⟩ := List.forall_mem_append.1 (wellTyped_iff.1 h)
  obtain ⟨typed, htyped⟩ := (guarded_check rows).exists_ok_iff.2 hrows
  obtain ⟨ids, hids⟩ := (guarded_finals finals).exists_ok_iff.2 hfinals
  exact ⟨typed, ids, isBlank_of_check htyped, check_eq_ok htyped,
    eq_map_of_mapM (fun _ _ => checkStateId_eq_ok) hids⟩

end LooseRows

namespace Automaton

variable {rows : LooseRows} {finals : List Value}

theorem ofLoose_of_firstUnmet (h : FirstUnmet (rows.demands finals) k) : ofLoose rows finals = .error k.fault := by
  rcases firstUnmet_append.1 h with hrows | ⟨hmet, hfinals⟩
  · have hcheck := (LooseRows.guarded_check rows k.fault).2 ⟨k, hrows, rfl⟩
    unfold ofLoose
    split
    · next hfault => cases hfault.symm.trans hcheck; rfl
    · next htyped => rw [hcheck] at htyped; cases htyped
  · obtain ⟨typed, htyped⟩ := (LooseRows.guarded_check rows).exists_ok_iff.2 hmet
    have hcheck := (LooseRows.guarded_finals finals k.fault).2 ⟨k, hfinals, rfl⟩
    rw [ofLoose_eq htyped, hcheck]; rfl

/-- How making an automaton ends: with a fault that names the first value of the wrong type, or with the limit that
this value meets, with the first rule that is broken, or with the edges and the final states as they were given, and
with the symbols of the edges. -/
inductive Construction (room : Nat) (rows : LooseRows) (finals : List Value) : Except Fault Automaton → Prop
  | misfit {k : Demand} (h : FirstUnmet (rows.demands finals) k) (hk : k.value.Writable room) :
    Construction room rows finals (.error k.fault)
  | unwritable {k : Demand} {limit : Value.Limit} (h : FirstUnmet (rows.demands finals) k)
    (hk : k.value.Meets room limit) : Construction room rows finals (.error (.unwritable limit))
  | invalid {r : Failure} (h : rows.WellTyped finals)
    (hr : rows.failure? finals rows.symbols = .ok (some r)) : Construction room rows finals (.error (.invalid r))
  | made {d : Automaton} (h : rows.WellTyped finals) (hnone : rows.failure? finals rows.symbols = .ok none)
    (hrows : rows = d.rows.loose) (hfinals : ∀ v, v ∈ finals ↔ ∃ q ∈ d.finals, v = .int q)
    (halphabet : ∀ v, v ∈ rows.symbols ↔ ∃ c ∈ d.alphabet, v = .char c) : Construction room rows finals (.ok d)

theorem failure?_loose_symbols (typed : Rows Int Char) (ids : List Int) :
    LooseRows.failure? typed.loose (ids.map .int) typed.loose.symbols =
      .ok (failure? initial typed ids typed.symbols) := by
  rw [Rows.symbols_loose]; exact LooseRows.failure?_loose typed ids typed.symbols

variable {room : Nat}

theorem construct_of_firstUnmet (h : FirstUnmet (rows.demands finals) k) :
    construct room rows finals = .error (k.fault.raised room) := by
  rw [construct, ofLoose_of_firstUnmet h]; rfl

theorem Construction.eq {result : Except Fault Automaton} (h : Construction room rows finals result) :
    construct room rows finals = result := by
  cases h with
  | misfit h hk => rw [construct_of_firstUnmet h, Demand.raised_fault, Value.limit?_eq_none_iff.2 hk]
  | unwritable h hk => rw [construct_of_firstUnmet h, Demand.raised_fault, Value.limit?_eq_some_iff.2 hk]
  | invalid h hr =>
    obtain ⟨typed, ids, hblank, rfl, rfl⟩ := h.exists_loose
    rw [failure?_loose_symbols, Except.ok.injEq] at hr
    rw [construct, (ofLoose_loose_eq_error_iff hblank).2 ⟨_, rfl, hr⟩]; rfl
  | @made d h _ hrows hfinals _ =>
    obtain ⟨typed, ids, -, -, rfl⟩ := h.exists_loose
    have hids : ascending ids = d.finals :=
      ascending_eq d.finals_ascending fun q => by simpa using hfinals (.int q)
    rw [construct, ofLoose_eq_ok_iff.2 ⟨hrows, ids, rfl, hids.symm⟩]; rfl

/-- Two lists in each other need more room than one value. -/
example : construct 1 (.ofList [(.int 0, .ofList [(.text "a", .list [.list []])])]) [.int 0] =
    .error (.unwritable .nesting) := rfl

end Automaton

end Acceptor
