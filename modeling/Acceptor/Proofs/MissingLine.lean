import Acceptor.Proofs.CanonicalForm
import Acceptor.Proofs.Rules
import Mathlib.Data.List.InsertIdx

/-!
# A text with one line missing

`d.formatWithout e` is the text of `d` without the line of its edge `e`. It is read as all the other edges
(`ofText_formatWithout_eq`), and what they make of it depends on what stands on other lines: the symbol and the
source of `e` are gone with their last line. With another symbol the source stays a state
(`contains_others_of_symbol`) and then lacks the symbol, if another state has it; with no other symbol the source
is lost (`contains_others_of_only`), which shows if it is the initial state or the target of another one
(`ofText_formatWithout`).
-/

namespace Acceptor

theorem exists_ne_of_two_le {α : Type} {l : List α} (hl : l.Nodup) (h : 2 ≤ l.length) (a : α) :
    ∃ b ∈ l, b ≠ a := by
  have hne : l ≠ [a] := by rintro rfl; simp at h
  rcases (hl.ne_singleton_iff a).1 hne with rfl | hb
  · simp at h
  · exact hb

theorem eq_of_length_eq_one {α : Type} {l : List α} (h : l.length = 1) {a b : α} (ha : a ∈ l) (hb : b ∈ l) :
    a = b := by
  obtain ⟨x, rfl⟩ := List.length_eq_one_iff.1 h
  rw [List.mem_singleton.1 ha, List.mem_singleton.1 hb]

namespace Automaton

variable {d e : Automaton} {q t p u : Int} {c a : Char}

theorem nodup_edges (d : Automaton) : d.edges.Nodup := by
  have hkeys : (d.transitions.map Transition.key).Nodup := by
    rw [keys_transitions]; exact d.nodup_states.product d.nodup_alphabet
  exact (hkeys.of_map _).of_map _

/-- The text without the line of an edge. -/
def formatWithout (d : Automaton) (edge : Int × Char × Int) : String :=
  String.join ((d.formatLines.eraseIdx (d.edges.idxOf edge + 1)).map (· ++ "\n"))

/-- `e` is what is left of `d` on these states and symbols, with the final states of `d`. -/
structure Restricts (e d : Automaton) (qs : List Int) (cs : List Char) : Prop where
  states : e.states = qs
  alphabet : e.alphabet = cs
  finals : e.finals = d.finals
  target?_eq : ∀ p ∈ qs, ∀ a ∈ cs, e.target? p a = d.target? p a

/-- The rows that all edges but one make. -/
def others (d : Automaton) (edge : Int × Char × Int) : Rows Int Char := rowsOfEdges (d.edges.erase edge)

section

variable (hq : ∀ q ∈ d.states, Numeral.Short q) (hf : ∀ q ∈ d.finals, Numeral.Short q)
include hq hf

theorem ofText_formatWithout_eq (edge : Int × Char × Int) :
    Builder.ofText (d.formatWithout edge) =
      .ok (Builder.collected d.finals ((d.edges.erase edge).map Transition.ofEdge)) := by
  have hlines : d.formatLines.eraseIdx (d.edges.idxOf edge + 1) = d.formatSome (d.edges.erase edge) := by
    rw [formatLines, List.eraseIdx_cons_succ, List.eraseIdx_map, ← List.erase_eq_eraseIdx_of_idxOf rfl]; rfl
  rw [formatWithout, hlines]
  exact ofText_formatSome hq hf List.erase_subset

end

theorem holds_others (d : Automaton) (edge : Int × Char × Int) :
    (Builder.collected d.finals ((d.edges.erase edge).map Transition.ofEdge)).Holds (d.others edge) := by
  refine Builder.holds_collected d.finals fun t ht => ?_
  obtain ⟨⟨q, c, t⟩, he, rfl⟩ := List.mem_map.1 ht
  exact isBlank_of_mem_edges (List.mem_of_mem_erase he)

section

variable (he : (q, c, t) ∈ d.edges)
include he

theorem target?_others_iff :
    (d.others (q, c, t)).target? p a = some u ↔ d.target? p a = some u ∧ ¬ (p = q ∧ a = c) := by
  rw [others, target?_rowsOfEdges_iff List.erase_subset, d.nodup_edges.mem_erase_iff, mem_edges, and_comm]
  refine and_congr_right fun hu => not_congr ⟨fun h => ?_, ?_⟩
  · cases h; exact ⟨rfl, rfl⟩
  · rintro ⟨rfl, rfl⟩
    rw [mem_edges.1 he] at hu; cases hu; rfl

theorem contains_others_iff :
    (d.others (q, c, t)).contains p = true ↔ ∃ a u, d.target? p a = some u ∧ ¬ (p = q ∧ a = c) := by
  simp only [← target?_others_iff he]
  rw [others, contains_rowsOfEdges_iff]
  simp only [target?_rowsOfEdges_iff List.erase_subset]

theorem target?_others_of_ne (h : ¬ (p = q ∧ a = c)) : (d.others (q, c, t)).target? p a = d.target? p a := by
  ext u
  rw [target?_others_iff he]
  exact and_iff_left h

theorem target?_others_self : (d.others (q, c, t)).target? q c = none := by
  rw [Option.eq_none_iff_forall_ne_some]
  intro u hu
  exact ((target?_others_iff he).1 hu).2 ⟨rfl, rfl⟩

theorem contains_others_of_symbol (ha : a ∈ d.alphabet) (hac : a ≠ c) (p : Int) :
    (d.others (q, c, t)).contains p = d.rows.contains p := by
  rw [Bool.eq_iff_iff, contains_others_iff he]
  constructor
  · rintro ⟨_, _, ht, -⟩; exact contains_source ht
  · intro hp
    obtain ⟨u, hu⟩ := exists_target? hp ha
    exact ⟨a, u, hu, fun h => hac h.2⟩

theorem contains_others_of_only (hc : ∀ a ∈ d.alphabet, a = c) (p : Int) :
    (d.others (q, c, t)).contains p = true ↔ d.rows.contains p = true ∧ p ≠ q := by
  rw [contains_others_iff he]
  constructor
  · rintro ⟨a, u, hu, hne⟩
    exact ⟨contains_source hu, fun hp => hne ⟨hp, hc a (mem_alphabet_of_target? hu)⟩⟩
  · rintro ⟨hp, hne⟩
    obtain ⟨u, hu⟩ := exists_target? hp (mem_alphabet_of_target? (mem_edges.1 he))
    exact ⟨c, u, hu, fun h => hne h.1⟩

theorem target?_others_of_only (hc : ∀ a ∈ d.alphabet, a = c) :
    (d.others (q, c, t)).target? p a = some u ↔ d.target? p a = some u ∧ p ≠ q := by
  rw [target?_others_iff he]
  refine and_congr_right fun hu => ?_
  rw [hc a (mem_alphabet_of_target? hu)]
  simp

theorem failure?_others_of_symbol_state (ha : a ∈ d.alphabet) (hac : a ≠ c) (hp : p ∈ d.states) (hpq : p ≠ q) :
    failure? initial (d.others (q, c, t)) d.finals (d.others (q, c, t)).symbols =
      some .incompleteTransitions := by
  have hct := mem_edges.1 he
  have hcontains := contains_others_of_symbol he ha hac
  obtain ⟨u, hu⟩ := exists_target? (mem_states.1 hp) (mem_alphabet_of_target? hct)
  have hsymbol : c ∈ (d.others (q, c, t)).symbols :=
    Rows.mem_symbols_iff.2 ⟨p, u, (target?_others_iff he).2 ⟨hu, fun h => hpq h.1⟩⟩
  exact failure?_eq_incompleteTransitions_iff.2 ⟨by rw [hcontains]; exact d.contains_initial, d.finals_ne_nil,
    q, c, by rw [hcontains]; exact contains_source hct, hsymbol, target?_others_self he⟩

theorem complete_others_of_symbol (ha : a ∈ d.alphabet) (hac : a ≠ c) (hq : ∀ p ∈ d.states, p = q) :
    Complete initial (d.others (q, c, t)) d.finals (d.others (q, c, t)).symbols := by
  have hcontains := contains_others_of_symbol he ha hac
  refine complete_iff.2 ⟨by rw [hcontains]; exact d.contains_initial, d.finals_ne_nil, fun p b hp hb => ?_,
    fun p b u hu => by rw [hcontains]; exact contains_of_target? ((target?_others_iff he).1 hu).1⟩
  -- a symbol that is left stands on a line of the only state
  obtain ⟨r, u, hu⟩ := Rows.mem_symbols_iff.1 hb
  rw [hcontains] at hp
  obtain rfl : p = r := by
    rw [hq p (mem_states.2 hp), hq r (mem_states.2 (contains_source ((target?_others_iff he).1 hu).1))]
  exact ⟨u, hu⟩

theorem failure?_others_of_initial (hc : ∀ a ∈ d.alphabet, a = c) (hq : q = initial) :
    failure? initial (d.others (q, c, t)) d.finals (d.others (q, c, t)).symbols = some .missingInitialState := by
  apply failure?_eq_missingInitialState
  rw [Bool.eq_false_iff, ne_eq, contains_others_of_only he hc]
  exact fun h => h.2 hq.symm

theorem total_others_of_only (hc : ∀ a ∈ d.alphabet, a = c) (p : Int) (a : Char)
    (hp : (d.others (q, c, t)).contains p = true) (ha : a ∈ (d.others (q, c, t)).symbols) :
    ∃ u, (d.others (q, c, t)).target? p a = some u := by
  obtain ⟨hp, hpq⟩ := (contains_others_of_only he hc p).1 hp
  obtain ⟨r, v, hv⟩ := Rows.mem_symbols_iff.1 ha
  obtain ⟨u, hu⟩ := exists_target? hp (mem_alphabet_of_target? ((target?_others_iff he).1 hv).1)
  exact ⟨u, (target?_others_of_only he hc).2 ⟨hu, hpq⟩⟩

theorem failure?_others_of_entered (hc : ∀ a ∈ d.alphabet, a = c) (hq : q ≠ initial) (hpq : p ≠ q)
    (ht : d.target? p a = some q) :
    failure? initial (d.others (q, c, t)) d.finals (d.others (q, c, t)).symbols = some .danglingTarget := by
  have hlost : (d.others (q, c, t)).contains q = false := by
    rw [Bool.eq_false_iff, ne_eq, contains_others_of_only he hc]
    exact fun h => h.2 rfl
  exact failure?_eq_danglingTarget_iff.2 ⟨(contains_others_of_only he hc initial).2 ⟨d.contains_initial, hq.symm⟩,
    d.finals_ne_nil, total_others_of_only he hc, p, a, q, (target?_others_of_only he hc).2 ⟨ht, hpq⟩, hlost⟩

theorem complete_others_of_only (hc : ∀ a ∈ d.alphabet, a = c) (hq : q ≠ initial)
    (hentered : ∀ p a, p ≠ q → d.target? p a ≠ some q) :
    Complete initial (d.others (q, c, t)) d.finals (d.others (q, c, t)).symbols := by
  refine complete_iff.2 ⟨(contains_others_of_only he hc initial).2 ⟨d.contains_initial, hq.symm⟩,
    d.finals_ne_nil, total_others_of_only he hc, fun p a u hu => ?_⟩
  obtain ⟨hu, hpq⟩ := (target?_others_of_only he hc).1 hu
  refine (contains_others_of_only he hc u).2 ⟨contains_of_target? hu, fun huq => ?_⟩
  exact hentered p a hpq (huq ▸ hu)

end

theorem Restricts.of_mem {qs : List Int} {cs : List Char} (hqs : qs.Pairwise (· < ·)) (hcs : cs.Pairwise (· < ·))
    (hstates : ∀ p, e.rows.contains p = true ↔ p ∈ qs) (hsymbols : ∀ a, a ∈ e.rows.symbols ↔ a ∈ cs)
    (hfinals : e.finals = d.finals) (ht : ∀ p ∈ qs, ∀ a ∈ cs, e.target? p a = d.target? p a) :
    e.Restricts d qs cs where
  states := ascending_eq hqs fun p => by rw [OrderedMap.mem_keys_iff]; exact hstates p
  alphabet := ascending_eq hcs hsymbols
  finals := hfinals
  target?_eq := ht

section

variable (he : (q, c, t) ∈ d.edges) (hrows : e.rows = d.others (q, c, t)) (hfinals : e.finals = d.finals)
include he hrows hfinals

theorem restricts_of_symbol (ha : a ∈ d.alphabet) (hac : a ≠ c) (hq : ∀ p ∈ d.states, p = q) :
    e.Restricts d d.states (d.alphabet.erase c) := by
  have hcontains := contains_others_of_symbol he ha hac
  refine .of_mem (pairwise_ascending _) ((pairwise_ascending _).erase c) (fun p => ?_) (fun b => ?_) hfinals
    fun p _ b hb => ?_
  · rw [hrows, hcontains, mem_states]
  · rw [hrows, Rows.mem_symbols_iff, d.nodup_alphabet.mem_erase_iff, mem_alphabet]
    simp only [target?_others_iff he]
    constructor
    · rintro ⟨p, u, hu, hne⟩
      have hp := hq p (mem_states.2 (contains_source hu))
      exact ⟨fun hb => hne ⟨hp, hb⟩, p, u, hu⟩
    · rintro ⟨hbc, p, u, hu⟩; exact ⟨p, u, hu, fun h => hbc h.2⟩
  · have hbc := (d.nodup_alphabet.mem_erase_iff.1 hb).1
    show e.rows.target? p b = _
    rw [hrows, target?_others_of_ne he fun h => hbc h.2]

theorem restricts_of_only (hc : ∀ a ∈ d.alphabet, a = c) (hq : q ≠ initial) :
    e.Restricts d (d.states.erase q) d.alphabet := by
  refine .of_mem ((pairwise_ascending _).erase q) (pairwise_ascending _) (fun p => ?_) (fun b => ?_) hfinals
    fun p hp b _ => ?_
  · rw [hrows, contains_others_of_only he hc, d.nodup_states.mem_erase_iff, mem_states, and_comm]
  · rw [hrows, Rows.mem_symbols_iff, mem_alphabet]
    simp only [target?_others_of_only he hc]
    constructor
    · rintro ⟨p, u, hu, -⟩; exact ⟨p, u, hu⟩
    · intro hb
      -- the initial state keeps its line
      obtain ⟨u, hu⟩ := exists_target? d.contains_initial (mem_alphabet.2 hb)
      exact ⟨initial, u, hu, hq.symm⟩
  · have hpq := (d.nodup_states.mem_erase_iff.1 hp).1
    show e.rows.target? p b = _
    rw [hrows, target?_others_of_ne he fun h => hpq h.1]

end

/-- The text of an automaton without the line of one of its edges is read, and what is read breaks a rule or is
the automaton without the symbol or without the source of the edge. -/
theorem ofText_formatWithout (hq : ∀ q ∈ d.states, Numeral.Short q) (hf : ∀ q ∈ d.finals, Numeral.Short q)
    (he : (q, c, t) ∈ d.edges) :
    ∃ b, Builder.ofText (d.formatWithout (q, c, t)) = .ok b ∧
      (2 ≤ d.alphabet.length → 2 ≤ d.states.length →
        b.freeze.2 = .error (.invalid .incompleteTransitions)) ∧
      (2 ≤ d.alphabet.length → d.states.length = 1 →
        ∃ e : Automaton, b.freeze.2 = .ok e ∧ e.Restricts d d.states (d.alphabet.erase c)) ∧
      (d.alphabet.length = 1 → q = 0 → b.freeze.2 = .error (.invalid .missingInitialState)) ∧
      (d.alphabet.length = 1 → q ≠ 0 → (∃ p ∈ d.states, p ≠ q ∧ ∃ a, d.target? p a = some q) →
        b.freeze.2 = .error (.invalid .danglingTarget)) ∧
      (d.alphabet.length = 1 → q ≠ 0 → (¬ ∃ p ∈ d.states, p ≠ q ∧ ∃ a, d.target? p a = some q) →
        ∃ e : Automaton, b.freeze.2 = .ok e ∧ e.Restricts d (d.states.erase q) d.alphabet) := by
  have hct := mem_edges.1 he
  have hmem : c ∈ d.alphabet := mem_alphabet_of_target? hct
  have hreject {f : Failure} := (Builder.freeze_collected_eq_error_iff (f := f) (d.holds_others (q, c, t))).2
  have honly (h : d.alphabet.length = 1) : ∀ a ∈ d.alphabet, a = c := fun a ha => eq_of_length_eq_one h ha hmem
  refine ⟨_, ofText_formatWithout_eq hq hf (q, c, t), fun hs hn => ?_, fun hs hn => ?_, fun hs hq0 => ?_,
    fun hs hq0 => ?_, fun hs hq0 hentered => ?_⟩
  · obtain ⟨a, ha, hac⟩ := exists_ne_of_two_le d.nodup_alphabet hs c
    obtain ⟨p, hp, hpq⟩ := exists_ne_of_two_le d.nodup_states hn q
    exact hreject (failure?_others_of_symbol_state he ha hac hp hpq)
  · obtain ⟨a, ha, hac⟩ := exists_ne_of_two_le d.nodup_alphabet hs c
    have hstate : ∀ p ∈ d.states, p = q := fun p hp =>
      eq_of_length_eq_one hn hp (mem_states.2 (contains_source hct))
    obtain ⟨e, hfreeze, hrows, hfinals⟩ := Builder.exists_freeze_collected (d.holds_others _)
      d.finals_ascending (complete_others_of_symbol he ha hac hstate)
    exact ⟨e, hfreeze, restricts_of_symbol he hrows hfinals ha hac hstate⟩
  · exact hreject (failure?_others_of_initial he (honly hs) hq0)
  · rintro ⟨p, -, hpq, a, ht⟩
    exact hreject (failure?_others_of_entered he (honly hs) hq0 hpq ht)
  · have hnot : ∀ p a, p ≠ q → d.target? p a ≠ some q := fun p a hpq ht =>
      hentered ⟨p, mem_states.2 (contains_source ht), hpq, a, ht⟩
    obtain ⟨e, hfreeze, hrows, hfinals⟩ := Builder.exists_freeze_collected (d.holds_others _)
      d.finals_ascending (complete_others_of_only he (honly hs) hq0 hnot)
    exact ⟨e, hfreeze, restricts_of_only he hrows hfinals (honly hs) hq0⟩

/-- The lines of two states that lead to the second one; and the line of a state that nothing leads to. -/
theorem ofText_formatWithout_only_symbol :
    (∃ d : Automaton, d.format = "1\n0 a 1\n1 a 1\n" ∧
      (∃ b, Builder.ofText (d.formatWithout (0, 'a', 1)) = .ok b ∧
        b.freeze.2 = .error (.invalid .missingInitialState)) ∧
      ∃ b, Builder.ofText (d.formatWithout (1, 'a', 1)) = .ok b ∧
        b.freeze.2 = .error (.invalid .danglingTarget)) ∧
    ∃ d e : Automaton, d.states = [0, 7] ∧ e.states = [0] ∧ e.finals = [7] ∧
      ∃ b, Builder.ofText (d.formatWithout (7, 'a', 0)) = .ok b ∧ b.freeze.2 = .ok e := by
  constructor
  · let d : Automaton := ⟨.ofList [(0, .ofList [('a', 1)]), (1, .ofList [('a', 1)])], [1],
      failure?_eq_none_iff.1 rfl, by decide, isBlank_of_any rfl⟩
    obtain ⟨b, hb, -, -, hinitial, -⟩ := ofText_formatWithout (d := d) (q := 0) (c := 'a') (t := 1)
      (by decide) (by decide) (by decide)
    obtain ⟨b', hb', -, -, -, hentered, -⟩ := ofText_formatWithout (d := d) (q := 1) (c := 'a') (t := 1)
      (by decide) (by decide) (by decide)
    exact ⟨d, by decide, ⟨b, hb, hinitial rfl rfl⟩, b', hb',
      hentered rfl (by decide) ⟨0, by decide, by decide, 'a', rfl⟩⟩
  · let d : Automaton := ⟨.ofList [(0, .ofList [('a', 0)]), (7, .ofList [('a', 0)])], [7],
      failure?_eq_none_iff.1 rfl, by decide, isBlank_of_any rfl⟩
    obtain ⟨b, hb, -, -, -, -, hleft⟩ := ofText_formatWithout (d := d) (q := 7) (c := 'a') (t := 0)
      (by decide) (by decide) (by decide)
    have hnot : ¬ ∃ p ∈ d.states, p ≠ 7 ∧ ∃ a, d.target? p a = some 7 := by
      rintro ⟨p, -, -, a, h⟩
      have htargets : ∀ edge ∈ d.edges, edge.2.2 ≠ 7 := by decide
      exact htargets (p, a, 7) (mem_edges.2 h) rfl
    obtain ⟨e, he, hrestricts⟩ := hleft rfl (by decide) hnot
    exact ⟨d, e, by decide, hrestricts.states, hrestricts.finals, b, hb, he⟩

end Automaton

end Acceptor
