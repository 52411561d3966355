import Acceptor.Analysis.Batch
import Acceptor.Analysis.Reachability
import Acceptor.Proofs.Automaton

/-!
# Equality of automata

Equal automata have the same states and final states and the same target for every state and symbol, and no
others are equal (`beq_iff_extensional`). Everything that is made of an automaton is made of these, in an
order of its own, so the order in which rows and edges were given shows nowhere (`Alike.observed`).
-/

namespace Acceptor

namespace Automaton

variable {d e : Automaton} {q : Int} {c : Char}

theorem target?_of_isBlank (h : Text.isBlank c = true) : d.target? q c = none := by
  rw [Option.eq_none_iff_forall_ne_some]
  intro t ht
  have hc := isBlank_of_mem_alphabet (mem_alphabet_of_target? ht)
  rw [h] at hc; cases hc

/-- Of the row of a state nothing counts but which symbol has which target. -/
theorem lookUp_eq (d : Automaton) (state symbol : Value) :
    d.lookUp state symbol = (do
      state.checkKey
      match state.integer?.bind fun q => (d.rows.find? q).map OrderedMap.find? with
      | none => return none
      | some target? =>
        symbol.checkKey
        return symbol.symbol?.bind target?) := by
  unfold lookUp
  cases state.integer? with
  | none => rfl
  | some q =>
    rw [Option.bind_some, Option.bind_some]
    cases d.rows.find? q <;> rfl

/-- Looking up what is well typed cannot fail. -/
theorem lookUp_int_char (d : Automaton) (q : Int) (c : Char) :
    d.lookUp (.int q) (.char c) = .ok (d.target? q c) := by
  have hsymbol : (Value.char c).symbol? = if Text.isBlank c then none else some c := by
    simp [Value.char, Value.symbol?]
  rw [lookUp_eq]
  show (match (d.rows.find? q).map OrderedMap.find? with
    | none => Except.ok none
    | some target? => Except.ok ((Value.char c).symbol?.bind target?)) = _
  cases hc : Text.isBlank c with
  | true =>
    rw [hsymbol, hc, target?_of_isBlank hc]
    cases d.rows.find? q <;> rfl
  | false =>
    rw [hsymbol, hc, target?]
    cases d.rows.find? q <;> rfl

/-- Nothing that is shown or computed tells the two automata apart. -/
structure Observed (d e : Automaton) : Prop where
  alphabet : d.alphabet = e.alphabet
  lookUp : ∀ state symbol, d.lookUp state symbol = e.lookUp state symbol
  run : ∀ w, d.run w = e.run w
  accepts : ∀ w, d.accepts w = e.accepts w
  table : d.table = e.table
  adjacency : d.table.adjacency = e.table.adjacency
  reachable : d.reachable = e.reachable
  acceptsAll : ∀ words, d.acceptsAll words = e.acceptsAll words
  key : d.key = e.key

namespace Alike

theorem refl (d : Automaton) : Alike d d := ⟨fun _ => rfl, fun _ _ => rfl, rfl⟩

theorem symm (h : Alike d e) : Alike e d :=
  ⟨fun q => (h.contains q).symm, fun q c => (h.target? q c).symm, h.finals.symm⟩

theorem trans {d' : Automaton} (h : Alike d e) (h' : Alike e d') : Alike d d' :=
  ⟨fun q => (h.contains q).trans (h'.contains q), fun q c => (h.target? q c).trans (h'.target? q c),
    h.finals.trans h'.finals⟩

theorem of_mem (hs : ∀ q, q ∈ d.states ↔ q ∈ e.states) (hf : ∀ q, q ∈ d.finals ↔ q ∈ e.finals)
    (ht : ∀ q c, d.target? q c = e.target? q c) : Alike d e where
  contains q := by rw [Bool.eq_iff_iff, ← mem_states, ← mem_states, hs]
  target? := ht
  finals := d.finals_ascending.eq_of_mem_iff e.finals_ascending fun {q} => hf q

/-- A state has a row in both automata or in neither, and then the same targets stand in the two rows. -/
theorem find?_row (h : Alike d e) (q : Int) :
    (d.rows.find? q).map OrderedMap.find? = (e.rows.find? q).map OrderedMap.find? := by
  have hcontains := h.contains q
  rw [← OrderedMap.isSome_find?, ← OrderedMap.isSome_find?] at hcontains
  have htarget := h.target? q
  unfold Automaton.target? at htarget
  cases hd : d.rows.find? q with
  | none =>
    cases he : e.rows.find? q with
    | none => rfl
    | some row' => rw [hd, he] at hcontains; cases hcontains
  | some row =>
    cases he : e.rows.find? q with
    | none => rw [hd, he] at hcontains; cases hcontains
    | some row' =>
      rw [hd, he] at htarget
      exact congrArg some (funext htarget)

theorem lookUp (h : Alike d e) (state symbol : Value) : d.lookUp state symbol = e.lookUp state symbol := by
  simp only [lookUp_eq, h.find?_row]

theorem run (h : Alike d e) (w : String) : d.run w = e.run w := by
  have htarget : d.target? = e.target? := funext fun q => funext (h.target? q)
  rw [Automaton.run, Automaton.run, runFrom_eq_foldlM, runFrom_eq_foldlM, htarget]

theorem table (h : Alike d e) : d.table = e.table := by
  simp only [Automaton.table, tableOn, h.states, h.alphabet, h.target?, h.finals]

theorem observed (h : Alike d e) : Observed d e where
  alphabet := h.alphabet
  lookUp := h.lookUp
  run := h.run
  accepts w := by rw [accepts, accepts, h.run, h.finals]
  table := h.table
  adjacency := by rw [h.table]
  reachable := by rw [reachable, reachable, h.table]
  acceptsAll words := by rw [acceptsAll, acceptsAll, h.table]
  key := by rw [key, key, h.edges, h.finals]

end Alike

/-- Equality is extensional, an equivalence, and respected by everything that is made of an automaton. -/
theorem beq_iff_extensional :
    Equivalence (fun d e : Automaton => (d == e) = true) ∧
    ∀ d e : Automaton,
      ((d == e) = true ↔ (∀ q, q ∈ d.states ↔ q ∈ e.states) ∧ (∀ q, q ∈ d.finals ↔ q ∈ e.finals) ∧
        ∀ q c, d.lookUp (.int q) (.char c) = e.lookUp (.int q) (.char c)) ∧
      ((d == e) = true → Observed d e) := by
  simp only [beq_iff_alike, lookUp_int_char, Except.ok.injEq]
  refine ⟨⟨Alike.refl, Alike.symm, Alike.trans⟩, fun d e => ⟨⟨fun h => ?_, fun h => ?_⟩, Alike.observed⟩⟩
  · exact ⟨fun q => by rw [h.states], fun q => by rw [h.finals], h.target?⟩
  · exact .of_mem h.1 h.2.1 h.2.2

/-- Rows and edges given in two orders; and a state without edges, which only the states tell. -/
theorem beq_iff_extensional_orders :
    (∃ d e : Automaton, d.rows.keys = [0, 1] ∧ e.rows.keys = [1, 0] ∧ (d == e) = true ∧
      d.lookUp (.int 1) (.char 'b') = e.lookUp (.int 1) (.char 'b') ∧ d.Observed e) ∧
    ∃ d e : Automaton, d.key = e.key ∧ 7 ∈ e.states ∧ 7 ∉ d.states ∧ (d == e) = false := by
  constructor
  · let d : Automaton := ⟨.ofList [(0, .ofList [('a', 1), ('b', 0)]), (1, .ofList [('a', 1), ('b', 0)])], [1],
      failure?_eq_none_iff.1 rfl, by decide, isBlank_of_any rfl⟩
    let e : Automaton := ⟨.ofList [(1, .ofList [('b', 0), ('a', 1)]), (0, .ofList [('b', 0), ('a', 1)])], [1],
      failure?_eq_none_iff.1 rfl, by decide, isBlank_of_any rfl⟩
    have heq : (d == e) = true := by decide
    obtain ⟨hiff, hobserved⟩ := beq_iff_extensional.2 d e
    exact ⟨d, e, rfl, rfl, heq, (hiff.1 heq).2.2 1 'b', hobserved heq⟩
  · let d : Automaton := ⟨.ofList [(0, ∅)], [0], failure?_eq_none_iff.1 rfl, by decide,
      fun c hc => absurd hc List.not_mem_nil⟩
    let e : Automaton := ⟨.ofList [(0, ∅), (7, ∅)], [0], failure?_eq_none_iff.1 rfl, by decide,
      fun c hc => absurd hc List.not_mem_nil⟩
    have he : (7 : Int) ∈ e.states := by decide
    have hd : (7 : Int) ∉ d.states := by decide
    refine ⟨d, e, rfl, he, hd, Bool.eq_false_iff.2 fun heq => hd ?_⟩
    exact (((beq_iff_extensional.2 d e).1.1 heq).1 7).2 he

end Automaton

end Acceptor
