import Acceptor.Builder
import Acceptor.Description.Line
import Acceptor.Proofs.Loose
import Acceptor.Proofs.Operation

/-!
# What a builder holds

`HasRows b rows`: the states of the builder are the well-typed `rows`; `Holds b rows`: its alphabet is the set of
their symbols as well. An addition that is not refused adds one final state or one edge (`addFinal_eq_ok_iff`,
`addTransition_eq_ok_iff`) and keeps this, while an edit adds an edge only (`edit_eq_ok_iff`). For a builder that
holds `rows` both `check` and `freeze` are the verdict of the rules on `rows` (`Holds.check`,
`Holds.freeze_eq_ok_iff`).
-/

namespace Acceptor

/-- Adds the edge of a transition. -/
def Rows.addTransition (rows : Rows Int Char) (t : Transition) : Rows Int Char :=
  rows.addEdge t.source t.symbol t.target

open Operation

theorem State.perform_adding {symbol : Value} (h : symbol.checkKey = .ok ()) (target : Value) (s : State) :
    (adding symbol target).perform s = (s.insert symbol target, .ok ()) := by
  rw [adding, perform_check_bind h, perform_modify]

theorem State.atomic_adding (symbol target : Value) : (adding symbol target).Atomic :=
  .check_bind fun _ _ => (Sure.modify _).atomic

namespace Builder

variable {b b' : Builder} {rows : Rows Int Char}

/-- The builder with one more transition, which needs no check. -/
def put (b : Builder) (t : Transition) : Builder :=
  { b with
    states := b.states.insert t.source
      ((b.stateOrEmpty t.source).insert (.char t.symbol) (.int t.target))
    alphabet := insertOnce t.symbol b.alphabet }

/-- The builder with one more edge, of which its alphabet is not told. -/
def withEdge (b : Builder) (q : Int) (symbol target : Value) : Builder :=
  { b with states := b.states.insert q ((b.stateOrEmpty q).insert symbol target) }

theorem rows_withEdge (b : Builder) (q : Int) (symbol target : Value) :
    (b.withEdge q symbol target).rows = b.rows.addEdge (.int q) symbol target := by
  -- the state of the source is its row, also where both are new
  have hrow : Rows.rowOf b.rows (.int q) = (b.stateOrEmpty q).edges := by
    show ((b.states.rename Value.int_beq_int State.edges).find? (.int q)).getD ∅ = _
    rw [OrderedMap.find?_rename, stateOrEmpty]
    cases b.states.find? q <;> rfl
  show (b.states.insert q ((b.stateOrEmpty q).insert symbol target)).rename Value.int_beq_int State.edges = _
  rw [OrderedMap.rename_insert, Rows.addEdge, hrow]; rfl

@[simp] theorem finals_put (b : Builder) (t : Transition) : (b.put t).finals = b.finals := rfl

@[simp] theorem spent_put (b : Builder) (t : Transition) : (b.put t).spent = b.spent := rfl

theorem finals_foldl_put (ts : List Transition) (b : Builder) : (ts.foldl put b).finals = b.finals := by
  induction ts generalizing b with
  | nil => rfl
  | cons t ts ih => rw [List.foldl_cons, ih, finals_put]

theorem spent_foldl_put (ts : List Transition) (b : Builder) : (ts.foldl put b).spent = b.spent := by
  induction ts generalizing b with
  | nil => rfl
  | cons t ts ih => rw [List.foldl_cons, ih, spent_put]

theorem checkUnspent_of (h : b.spent = false) : b.checkUnspent = .ok () := by
  rw [checkUnspent, h]; rfl

theorem checkUnspent_of_spent (h : b.spent = true) : b.checkUnspent = .error .spent := by
  rw [checkUnspent, h]; rfl

theorem checkUnspent_eq_ok {u : Unit} (h : b.checkUnspent = .ok u) : b.spent = false := by
  unfold checkUnspent at h
  split at h
  · cases h
  · exact Bool.eq_false_iff.2 ‹_›

theorem perform_addingFinal (h : b.spent = false) (q : Int) :
    (addingFinal (.int q)).perform b = ({ b with finals := b.finals ++ [q] }, .ok ()) := by
  rw [addingFinal, perform_get_bind, perform_check_bind (checkUnspent_of h), perform_check_bind (checkStateId_int q),
    perform_modify]

theorem addFinal_int (h : b.spent = false) (q : Int) :
    b.addFinal (.int q) = .ok { b with finals := b.finals ++ [q] } :=
  outcome_eq_ok_iff.2 ⟨(), perform_addingFinal h q⟩

/-- Everything that declaring a final state can do, when it is not refused. -/
theorem addFinal_eq_ok_iff {id : Value} :
    b.addFinal id = .ok b' ↔
      b.spent = false ∧ ∃ q, id = .int q ∧ b' = { b with finals := b.finals ++ [q] } := by
  constructor
  · intro h
    obtain ⟨_, h⟩ := outcome_eq_ok_iff.1 h
    rw [addingFinal, perform_get_bind] at h
    obtain ⟨_, hs, h⟩ := perform_check_bind_eq_ok_iff.1 h
    obtain ⟨q, hq, h⟩ := perform_check_bind_eq_ok_iff.1 h
    cases h
    exact ⟨checkUnspent_eq_ok hs, q, checkStateId_eq_ok hq, rfl⟩
  · rintro ⟨hs, q, rfl, rfl⟩; exact addFinal_int hs q

theorem perform_onState {α : Type} (q : Int) (op : Operation State α) (b : Builder) :
    (onState q op).perform b = ({ b with states := b.states.insert q (op.perform (b.stateOrEmpty q)).1 },
      (op.perform (b.stateOrEmpty q)).2) := by
  rw [onState, perform_get_bind]
  exact perform_check _ _

/-- The source is a state already when the edge is added to it. -/
theorem perform_onState_withState (b : Builder) (q : Int) {symbol : Value} (h : symbol.checkKey = .ok ())
    (target : Value) :
    (onState q (State.adding symbol target)).perform (b.withState q) = (b.withEdge q symbol target, .ok ()) := by
  have hstate : (b.withState q).stateOrEmpty q = b.stateOrEmpty q := by
    rw [stateOrEmpty, withState, OrderedMap.find?_insert, beq_self_eq_true]; rfl
  rw [perform_onState, hstate, State.perform_adding h, withState, OrderedMap.insert_insert, withEdge]

theorem perform_addingTransition (h : b.spent = false) (t : Transition) (ht : Text.isBlank t.symbol = false) :
    (addingTransition (.int t.source) (.char t.symbol) (.int t.target)).perform b = (b.put t, .ok ()) := by
  rw [addingTransition, perform_get_bind, perform_check_bind (checkUnspent_of h),
    perform_check_bind (checkStateId_int t.source), perform_check_bind (checkSymbol_char ht),
    perform_check_bind (checkStateId_int t.target), perform_modify_bind,
    perform_bind_of_ok (perform_onState_withState b t.source rfl _), perform_modify]
  rfl

theorem addTransition_typed (h : b.spent = false) (t : Transition) (ht : Text.isBlank t.symbol = false) :
    b.addTransition (.int t.source) (.char t.symbol) (.int t.target) = .ok (b.put t) :=
  outcome_eq_ok_iff.2 ⟨(), perform_addingTransition h t ht⟩

/-- Everything that adding a transition can do, when it is not refused. -/
theorem addTransition_eq_ok_iff {source symbol target : Value} :
    b.addTransition source symbol target = .ok b' ↔
      b.spent = false ∧ ∃ t : Transition, source = .int t.source ∧ symbol = .char t.symbol ∧
        Text.isBlank t.symbol = false ∧ target = .int t.target ∧ b' = b.put t := by
  constructor
  · intro h
    obtain ⟨u, hu⟩ := outcome_eq_ok_iff.1 h
    rw [addingTransition, perform_get_bind] at hu
    obtain ⟨_, hs, hu⟩ := perform_check_bind_eq_ok_iff.1 hu
    obtain ⟨q, hq, hu⟩ := perform_check_bind_eq_ok_iff.1 hu
    obtain ⟨c, hc, hu⟩ := perform_check_bind_eq_ok_iff.1 hu
    obtain ⟨t, ht, -⟩ := perform_check_bind_eq_ok_iff.1 hu
    have hb := isBlank_of_checkSymbol hc
    obtain rfl := checkStateId_eq_ok hq
    obtain rfl := checkSymbol_eq_ok hc
    obtain rfl := checkStateId_eq_ok ht
    have hs := checkUnspent_eq_ok hs
    rw [addTransition_typed hs ⟨q, c, t⟩ hb] at h
    cases h
    exact ⟨hs, ⟨q, c, t⟩, rfl, rfl, hb, rfl, rfl⟩
  · rintro ⟨hs, t, rfl, rfl, hb, rfl, rfl⟩; exact addTransition_typed hs t hb

/-! ### Refusals -/

theorem atomic_addingFinal (id : Value) : (addingFinal id).Atomic :=
  .get_bind fun _ => .check_bind fun _ _ => .check_bind fun _ _ => (Sure.modify _).atomic

theorem sure_onState {α : Type} (q : Int) {op : Operation State α} (h : op.Sure) : (onState q op).Sure := by
  intro b
  obtain ⟨s, a, hs⟩ := h (b.stateOrEmpty q)
  exact ⟨_, a, by rw [perform_onState, hs]⟩

/-- Work on a state that is there already is as good as its own. -/
theorem atomic_addingTransition (source symbol target : Value) : (addingTransition source symbol target).Atomic := by
  refine .get_bind fun b => .check_bind fun _ _ => .check_bind fun q _ => .check_bind fun c hc =>
    .check_bind fun _ _ => Sure.atomic ?_
  -- from here on nothing is refused: a symbol that has passed its check is a key
  obtain rfl := checkSymbol_eq_ok hc
  have hadding : (State.adding (.char c) target).Sure := fun s => ⟨_, _, State.perform_adding rfl target s⟩
  exact (Sure.modify _).bind fun _ => (sure_onState q hadding).bind fun _ => Sure.modify _

/-- Everything that looking for a state can find. -/
theorem state?_eq_some_iff {id : Value} {q : Int} {s : State} :
    b.state? id = .ok (some (q, s)) ↔
      id.checkKey = .ok () ∧ id.integer? = some q ∧ b.states.find? q = some s := by
  constructor
  · intro h
    obtain ⟨_, hkey, h⟩ := Except.bind_eq_ok_iff.1 h
    obtain ⟨p, hp, h⟩ := Option.bind_eq_some_iff.1 (Except.ok.inj h)
    obtain ⟨_, hs, h⟩ := Option.map_eq_some_iff.1 h
    cases h
    exact ⟨hkey, hp, hs⟩
  · rintro ⟨hkey, hq, hs⟩
    rw [state?, hkey]
    show Except.ok (id.integer?.bind _) = _
    rw [hq, Option.bind_some, hs]; rfl

/-- Everything that editing a state can do, when it is not refused. -/
theorem edit_eq_ok_iff {id symbol target : Value} :
    b.edit id symbol target = .ok b' ↔ ∃ q s, id.checkKey = .ok () ∧ id.integer? = some q ∧
      b.states.find? q = some s ∧ symbol.checkKey = .ok () ∧ b' = b.withEdge q symbol target := by
  rw [edit, outcome_eq_ok_iff, editing]
  simp only [perform_get_bind, perform_check_bind_eq_ok_iff]
  constructor
  · rintro ⟨_, _ | ⟨q, s⟩, hfound, h⟩
    · cases h
    · obtain ⟨hid, hq, hs⟩ := state?_eq_some_iff.1 hfound
      cases hsymbol : symbol.checkKey with
      | error fault =>
        rw [perform_onState, State.adding, perform_check_bind_error hsymbol] at h
        cases h
      | ok _ =>
        rw [perform_onState, State.perform_adding hsymbol] at h
        cases h
        exact ⟨q, s, hid, hq, hs, rfl, rfl⟩
  · rintro ⟨q, s, hid, hq, hs, hsymbol, rfl⟩
    refine ⟨(), some (q, s), state?_eq_some_iff.2 ⟨hid, hq, hs⟩, ?_⟩
    rw [perform_onState, State.perform_adding hsymbol]; rfl

/-- A state that is not changed may be put back. -/
theorem atomic_editing (id symbol target : Value) : (editing id symbol target).Atomic := by
  intro b fault h
  rw [editing, perform_get_bind] at h ⊢
  cases hfound : b.state? id with
  | error fault => rw [perform_check_bind_error rfl]
  | ok found =>
    rw [hfound, perform_check_bind rfl] at h
    rw [perform_check_bind rfl]
    cases found with
    | none => rfl
    | some qs =>
      obtain ⟨q, s⟩ := qs
      obtain ⟨-, -, hs⟩ := state?_eq_some_iff.1 hfound
      have hsame : b.stateOrEmpty q = s := by rw [stateOrEmpty, hs]; rfl
      rw [perform_onState, hsame] at h ⊢
      rw [State.atomic_adding symbol target s fault h, OrderedMap.insert_of_find? hs]

/-- An edit leaves the builder as it was, or it is not refused. -/
theorem editing_cases (b : Builder) (id symbol target : Value) :
    ((editing id symbol target).perform b).1 = b ∨
      b.edit id symbol target = .ok ((editing id symbol target).perform b).1 := by
  rw [edit, outcome]
  cases h : ((editing id symbol target).perform b).2 with
  | error fault => exact .inl (atomic_editing id symbol target b fault h)
  | ok _ => exact .inr rfl

theorem perform_editing_fst {id symbol target : Value} (h : b.edit id symbol target = .ok b') :
    ((editing id symbol target).perform b).1 = b' := by
  obtain ⟨_, h⟩ := outcome_eq_ok_iff.1 h
  rw [h]

theorem freeze_of_unspent (hs : b.spent = false) :
    b.freeze = ({ b with spent := true }, Automaton.ofLoose b.rows (b.finals.map Value.int)) := by
  rw [freeze, freezing, perform_get_bind, perform_check_bind (checkUnspent_of hs), perform_modify_bind,
    perform_get_bind, perform_check]
  rfl

theorem freeze_of_spent (hs : b.spent = true) : b.freeze = (b, .error .spent) := by
  rw [freeze, freezing, perform_get_bind, perform_check_bind_error (checkUnspent_of_spent hs)]

/-- The states of the builder are `rows`, whatever its alphabet is. -/
structure HasRows (b : Builder) (rows : Rows Int Char) : Prop where
  rows_eq : b.rows = rows.loose
  not_isBlank : ∀ c ∈ rows.symbols, Text.isBlank c = false

namespace HasRows

theorem congr (h : HasRows b rows) (hs : b'.states = b.states) : HasRows b' rows := by
  refine ⟨?_, h.not_isBlank⟩
  rw [Builder.rows, hs]; exact h.rows_eq

theorem withEdge (h : HasRows b rows) (q : Int) {c : Char} (t : Int) (hc : Text.isBlank c = false) :
    HasRows (b.withEdge q (.char c) (.int t)) (rows.addEdge q c t) := by
  refine ⟨?_, fun a ha => ?_⟩
  · rw [rows_withEdge, h.rows_eq]
    exact (Rows.rename_addEdge _ _ rows _ _ _).symm
  · rcases Rows.mem_symbols_addEdge.1 ha with rfl | ha
    · exact hc
    · exact h.not_isBlank a ha

theorem check_eq (h : HasRows b rows) :
    b.check = .ok (failure? Automaton.initial rows b.finals b.alphabet) := by
  rw [Builder.check, h.rows_eq, LooseRows.failure?_loose]

theorem freeze_eq (h : HasRows b rows) (hs : b.spent = false) :
    b.freeze.2 = Automaton.ofLoose rows.loose (b.finals.map Value.int) := by
  rw [freeze_of_unspent hs, ← h.rows_eq]

theorem freeze_eq_ok_iff (h : HasRows b rows) (hs : b.spent = false) {d : Automaton} :
    b.freeze.2 = .ok d ↔ failure? Automaton.initial rows b.finals rows.symbols = none ∧
      d.rows = rows ∧ d.finals = ascending b.finals := by
  rw [h.freeze_eq hs, Automaton.ofLoose_loose_eq_ok_iff h.not_isBlank]

theorem freeze_eq_error_iff (h : HasRows b rows) (hs : b.spent = false) {fault : Fault} :
    b.freeze.2 = .error fault ↔ ∃ f, fault = .invalid f ∧
      failure? Automaton.initial rows b.finals rows.symbols = some f := by
  rw [h.freeze_eq hs, Automaton.ofLoose_loose_eq_error_iff h.not_isBlank]

/-- A builder freezes if its rows and final states keep the rules. -/
theorem exists_freeze_iff (h : HasRows b rows) (hs : b.spent = false) :
    failure? Automaton.initial rows b.finals rows.symbols = none ↔ ∃ d, b.freeze.2 = .ok d := by
  constructor
  · intro hnone
    cases hd : b.freeze.2 with
    | ok d => exact ⟨d, rfl⟩
    | error fault =>
      obtain ⟨f, -, hf⟩ := (h.freeze_eq_error_iff hs).1 hd
      rw [hnone] at hf; cases hf
  · rintro ⟨d, hd⟩; exact ((h.freeze_eq_ok_iff hs).1 hd).1

end HasRows

/-- The states of the builder are `rows`, and its alphabet is the set of their symbols. -/
structure Holds (b : Builder) (rows : Rows Int Char) : Prop where
  rows_eq : b.rows = rows.loose
  not_isBlank : ∀ c ∈ rows.symbols, Text.isBlank c = false
  alphabet : b.alphabet = ascending rows.symbols

namespace Holds

theorem empty : Holds .empty ∅ := ⟨rfl, fun _ hc => absurd hc List.not_mem_nil, rfl⟩

theorem hasRows (h : Holds b rows) : HasRows b rows := ⟨h.rows_eq, h.not_isBlank⟩

theorem of_hasRows (h : HasRows b rows) (ha : b.alphabet = ascending rows.symbols) : Holds b rows :=
  ⟨h.rows_eq, h.not_isBlank, ha⟩

/-- Final states and the mark of a spent builder are no part of what it holds. -/
theorem congr (h : Holds b rows) (hs : b'.states = b.states) (ha : b'.alphabet = b.alphabet) :
    Holds b' rows :=
  of_hasRows (h.hasRows.congr hs) (by rw [ha, h.alphabet])

theorem put (h : Holds b rows) {t : Transition} (ht : Text.isBlank t.symbol = false) :
    Holds (b.put t) (rows.addTransition t) := by
  refine of_hasRows ((h.hasRows.withEdge t.source t.target ht).congr rfl) ?_
  show insertOnce t.symbol b.alphabet = _
  rw [h.alphabet]
  show ascending (t.symbol :: rows.symbols) = _
  exact ascending_congr fun c => by
    rw [List.mem_cons, Rows.addTransition, Rows.mem_symbols_addEdge]

theorem foldl_put {ts : List Transition} (h : Holds b rows)
    (hts : ∀ t ∈ ts, Text.isBlank t.symbol = false) :
    Holds (ts.foldl Builder.put b) (ts.foldl Rows.addTransition rows) := by
  induction ts generalizing b rows with
  | nil => exact h
  | cons t ts ih =>
    exact ih (h.put (hts t List.mem_cons_self)) fun u hu => hts u (List.mem_cons_of_mem _ hu)

theorem edges_find? (h : Holds b rows) (q : Int) :
    (b.states.find? q).map State.edges = (rows.find? q).map Rows.looseRow := by
  have hb : b.rows.find? (.int q) = (b.states.find? q).map State.edges :=
    OrderedMap.find?_rename Value.int_beq_int State.edges b.states q
  rw [← hb, h.rows_eq]
  exact OrderedMap.find?_rename Value.int_beq_int Rows.looseRow rows q

theorem contains_states (h : Holds b rows) (q : Int) : b.states.contains q = rows.contains q := by
  rw [← OrderedMap.isSome_find?, ← OrderedMap.isSome_find?, ← Option.isSome_map (f := State.edges),
    h.edges_find?, Option.isSome_map]

/-- A state has the edges of its row. -/
theorem edges_state (h : Holds b rows) {q : Int} {s : State} (hs : b.states.find? q = some s) :
    s.edges = Rows.looseRow (rows.rowOf q) := by
  have hedges := h.edges_find? q
  rw [hs] at hedges
  obtain ⟨row, hrow, hlast⟩ := Option.map_eq_some_iff.1 hedges.symm
  rw [← hlast, Rows.rowOf, hrow]; rfl

theorem target?_state (h : Holds b rows) {q : Int} {s : State} (hs : b.states.find? q = some s) (c : Char) :
    s.target? (.char c) = .ok ((rows.target? q c).map Value.int) := by
  rw [State.target?, h.edges_state hs, OrderedMap.find?_rename, Rows.find?_rowOf]; rfl

theorem size_state (h : Holds b rows) {q : Int} {s : State} (hs : b.states.find? q = some s) :
    s.size = (rows.rowOf q).size := by
  rw [State.size, h.edges_state hs, OrderedMap.size_rename]

theorem check (h : Holds b rows) :
    b.check = .ok (failure? Automaton.initial rows b.finals rows.symbols) := by
  rw [h.hasRows.check_eq, h.alphabet]
  exact congrArg _ (failure?_congr Iff.rfl fun _ => mem_ascending)

theorem freeze_eq_ok_iff (h : Holds b rows) (hs : b.spent = false) {d : Automaton} :
    b.freeze.2 = .ok d ↔ failure? Automaton.initial rows b.finals rows.symbols = none ∧
      d.rows = rows ∧ d.finals = ascending b.finals :=
  h.hasRows.freeze_eq_ok_iff hs

theorem freeze_eq_error_iff (h : Holds b rows) (hs : b.spent = false) {fault : Fault} :
    b.freeze.2 = .error fault ↔ ∃ f, fault = .invalid f ∧
      failure? Automaton.initial rows b.finals rows.symbols = some f :=
  h.hasRows.freeze_eq_error_iff hs

theorem exists_freeze_iff (h : Holds b rows) (hs : b.spent = false) :
    failure? Automaton.initial rows b.finals rows.symbols = none ↔ ∃ d, b.freeze.2 = .ok d :=
  h.hasRows.exists_freeze_iff hs

end Holds

/-- What is made of the outcome of an attempt. -/
def attempted : Except Fault Automaton → Except Fault (Option Automaton)
  | .ok d => .ok (some d)
  | .error (.invalid _) => .ok none
  | .error fault => .error fault

theorem build_eq (b : Builder) : b.build = (b.freeze.1, attempted b.freeze.2) := by
  rw [build, building, perform_tryCatch, perform_map]
  show _ = ((freezing.perform b).1, attempted (freezing.perform b).2)
  cases (freezing.perform b).2 with
  | ok d => rfl
  | error fault => cases fault <;> rfl

theorem build_eq_none_iff : b.build.2 = .ok none ↔ ∃ f, b.freeze.2 = .error (.invalid f) := by
  rw [build_eq]
  rcases b.freeze.2 with fault | d
  · cases fault <;> simp [attempted]
  · simp [attempted]

theorem build_eq_some_iff {d : Automaton} : b.build.2 = .ok (some d) ↔ b.freeze.2 = .ok d := by
  rw [build_eq]
  rcases b.freeze.2 with fault | d
  · cases fault <;> simp [attempted]
  · simp [attempted]

end Builder

end Acceptor
