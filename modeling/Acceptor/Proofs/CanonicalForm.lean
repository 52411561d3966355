import Acceptor.Proofs.RoundTrip
import Mathlib.Data.List.ProdSigma

/-!
# One text for each automaton

The text of an automaton lists its edges by source and then by symbol, one for every state with every symbol
(`keys_transitions`). Nothing is left in it of the order in which rows and edges were given
(`format_congr`). Where there is an edge at all, the text tells the states as well, and different automata
have different texts (`alike_of_format_eq`).
-/

namespace Acceptor

theorem pairwise_product {α β : Type} {r : α → α → Prop} {s : β → β → Prop} {l : List α} {m : List β}
    (hl : l.Pairwise r) (hm : m.Pairwise s) : (l ×ˢ m).Pairwise (Prod.Lex r s) := by
  induction hl with
  | nil => exact .nil
  | @cons a l ha hl ih =>
    rw [List.product_cons, List.pairwise_append]
    refine ⟨List.pairwise_map.2 (hm.imp fun h => .right a h), ih, ?_⟩
    rintro x hx ⟨a', b'⟩ hy
    obtain ⟨b, -, rfl⟩ := List.mem_map.1 hx
    exact .left b b' (ha a' (List.mem_product.1 hy).1)

namespace Automaton

variable {d e : Automaton}

theorem transitions_eq_nil_iff : d.transitions = [] ↔ d.edges = [] := List.map_eq_nil_iff

/-- Every state has an edge for every symbol, and these are all edges. -/
theorem keys_transitions (d : Automaton) : d.transitions.map Transition.key = d.states ×ˢ d.alphabet := by
  have hrow : ∀ q ∈ d.states, (d.alphabet.filterMap fun c => (d.target? q c).map fun t => (q, c, t)).map
      (fun e => (e.1, e.2.1)) = d.alphabet.map (Prod.mk q) := by
    intro q hq
    rw [filterMap_target? (mem_states.1 hq), List.map_map]; rfl
  calc d.transitions.map Transition.key
      = d.edges.map fun e => (e.1, e.2.1) := by rw [transitions, List.map_map]; rfl
    _ = d.states.flatMap fun q => d.alphabet.map (Prod.mk q) := by
        rw [edges_eq, List.map_flatMap]; exact List.flatMap_congr hrow

theorem length_formatLines (d : Automaton) :
    d.formatLines.length = 1 + d.states.length * d.alphabet.length := by
  have hkeys := congrArg List.length d.keys_transitions
  rw [List.length_map, transitions, List.length_map, List.length_product] at hkeys
  rw [formatLines, List.length_cons, List.length_map, hkeys, Nat.add_comm]

theorem describes_format (d : Automaton) : Describes d.format d.finals d.transitions := by
  refine ⟨_, _, contents_format d, ?_, ?_⟩
  · rw [Line.words_formatFinals, List.forall₂_map_left_iff, List.forall₂_same]
    exact fun q _ => Numeral.denotes_toText q
  · rw [transitions, List.forall₂_map_left_iff, List.forall₂_map_right_iff, List.forall₂_same]
    rintro ⟨q, c, t⟩ he
    exact Line.means_formatEdge (isBlank_of_mem_edges he)

theorem format_congr (hf : d.finals = e.finals) (he : d.edges = e.edges) : d.format = e.format := by
  rw [format, format, formatLines, formatLines, hf, he]

/-- An automaton with an edge is known from its text. -/
theorem alike_of_format_eq (hedges : d.edges ≠ [] ∨ e.edges ≠ []) (h : d.format = e.format) : Alike d e := by
  have hd := d.describes_format
  rw [h] at hd
  obtain ⟨hfinals, htransitions⟩ := hd.unique e.describes_format
  have htarget : ∀ q c, d.target? q c = e.target? q c := fun q c => by
    ext t; rw [← mem_transitions, ← mem_transitions, htransitions]
  have hnil : d.edges = [] ↔ e.edges = [] := by
    rw [← transitions_eq_nil_iff, ← transitions_eq_nil_iff, htransitions]
  have hd : d.edges ≠ [] := fun hd => hedges.elim (· hd) (· (hnil.1 hd))
  have he : e.edges ≠ [] := mt hnil.2 hd
  refine ⟨fun q => ?_, htarget, hfinals⟩
  rw [Bool.eq_iff_iff, contains_iff_of_edges hd, contains_iff_of_edges he]
  simp only [htarget]

/-- The text of the automaton ends each of its lines. The first lists the final states, and each other one is an
edge, one for every state with every symbol; all of it is strictly ascending. -/
structure Canonical (d : Automaton) : Prop where
  lines : Text.linesOf d.format = d.formatLines ++ [""]
  length : d.formatLines.length = 1 + d.states.length * d.alphabet.length
  describes : Describes d.format d.finals d.transitions
  finals : d.finals.Pairwise (· < ·)
  transitions : d.transitions.Pairwise fun t u => Prod.Lex (· < ·) (· < ·) t.key u.key
  keys : ∀ q c, (∃ t, ⟨q, c, t⟩ ∈ d.transitions) ↔ q ∈ d.states ∧ c ∈ d.alphabet
  targets : ∀ q c t, ⟨q, c, t⟩ ∈ d.transitions ↔ d.target? q c = some t

theorem canonical (d : Automaton) : d.Canonical where
  lines := d.linesOf_format
  length := d.length_formatLines
  describes := d.describes_format
  finals := d.finals_ascending
  transitions := by
    have hkeys : (d.transitions.map Transition.key).Pairwise (Prod.Lex (· < ·) (· < ·)) := by
      rw [keys_transitions]
      exact pairwise_product (pairwise_ascending _) (pairwise_ascending _)
    exact List.pairwise_map.1 hkeys
  keys q c := by
    rw [← List.mem_product, ← keys_transitions, List.mem_map]
    constructor
    · rintro ⟨t, ht⟩; exact ⟨_, ht, rfl⟩
    · rintro ⟨⟨q, c, t⟩, ht, h⟩; cases h; exact ⟨t, ht⟩
  targets q c t := mem_transitions

/-- The text is in canonical form; equal automata have the same, and no two others if there is an edge. -/
theorem format_canonical (d : Automaton) :
    d.Canonical ∧ ∀ e : Automaton,
      ((d == e) = true ↔ Alike d e) ∧
      ((d == e) = true → d.format = e.format) ∧
      (d.edges ≠ [] ∨ e.edges ≠ [] → d.format = e.format → (d == e) = true) :=
  ⟨d.canonical, fun _ => ⟨beq_iff_alike, fun h => format_congr (beq_iff_alike.1 h).finals (beq_iff_alike.1 h).edges,
    fun hedges h => (alike_of_format_eq hedges h).beq⟩⟩

/-- States given in two orders; and two automata without edges, which their text does not tell apart. -/
theorem format_canonical_orders :
    (∃ b b' d e, Builder.ofText "1 0\n0 a 1\n1 a 0\n" = .ok b ∧ b.freeze.2 = .ok d ∧
      Builder.ofText "0 1\n1 a 0\n0 a 0\n0 a 1\n" = .ok b' ∧ b'.freeze.2 = .ok e ∧
      d.rows.keys = [0, 1] ∧ e.rows.keys = [1, 0] ∧ d.format = e.format) ∧
    ∃ d e : Automaton, d.format = e.format ∧ (d == e) = false := by
  constructor
  · let ts : List Transition := [⟨0, 'a', 1⟩, ⟨1, 'a', 0⟩]
    let us : List Transition := [⟨1, 'a', 0⟩, ⟨0, 'a', 0⟩, ⟨0, 'a', 1⟩]
    have hb : Builder.ofText "1 0\n0 a 1\n1 a 0\n" = .ok (Builder.collected [1, 0] ts) := rfl
    have hb' : Builder.ofText "0 1\n1 a 0\n0 a 0\n0 a 1\n" = .ok (Builder.collected [0, 1] us) := rfl
    obtain ⟨d, e, hd, he, hdkeys, hekeys, hbeq⟩ : ∃ d e, (Builder.collected [1, 0] ts).freeze.2 = .ok d ∧
        (Builder.collected [0, 1] us).freeze.2 = .ok e ∧ d.rows.keys = [0, 1] ∧ e.rows.keys = [1, 0] ∧
        (d == e) = true := ⟨_, _, rfl, rfl, rfl, rfl, by decide⟩
    exact ⟨_, _, d, e, hb, hd, hb', he, hdkeys, hekeys, (d.format_canonical.2 e).2.1 hbeq⟩
  · let d : Automaton := ⟨.ofList [(0, ∅)], [0], failure?_eq_none_iff.1 rfl, by decide,
      fun c hc => absurd hc List.not_mem_nil⟩
    let e : Automaton := ⟨.ofList [(0, ∅), (7, ∅)], [0], failure?_eq_none_iff.1 rfl, by decide,
      fun c hc => absurd hc List.not_mem_nil⟩
    exact ⟨d, e, format_congr rfl rfl, by decide⟩

end Automaton

end Acceptor
