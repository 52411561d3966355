import Acceptor.Proofs.Meaning

/-!
# Reading back what was written

The text that is written for an automaton describes its final states and its edges (`ofText_format`), as
long as its ids are not too long to be read. The rows that are collected from it have the edges of the
automaton; they are complete again, and equal to it, exactly if there is an edge at all
(`readBack_format`): a state stands in the text only as the source of its edges.
-/

namespace Acceptor

namespace Text

theorem textLines_flatMap {lines : List (List Char)} (h : ∀ l ∈ lines, '\n' ∉ l) :
    textLines (lines.flatMap (· ++ ['\n'])) = lines ++ [[]] := by
  induction lines with
  | nil => rfl
  | cons l lines ih =>
    have hl : ∀ c ∈ l, (c == '\n') = false := fun c hc =>
      beq_eq_false_iff_ne.2 fun he => h l List.mem_cons_self (he ▸ hc)
    rw [List.flatMap_cons, List.append_assoc]
    show (l ++ '\n' :: lines.flatMap (· ++ ['\n'])).splitOnP (· == '\n') = _
    rw [List.splitOnP_append_cons_of_forall_mem hl '\n' (by decide)]
    exact congrArg _ (ih fun m hm => h m (List.mem_cons_of_mem _ hm))

/-- Lines with their ends, one behind the other, are the lines of that text, with an empty one behind
them. -/
theorem linesOf_join {lines : List String} (h : ∀ l ∈ lines, '\n' ∉ l.toList) :
    linesOf (String.join (lines.map (· ++ "\n"))) = lines ++ [""] := by
  have hjoin : (String.join (lines.map (· ++ "\n"))).toList =
      (lines.map String.toList).flatMap (· ++ ['\n']) := by
    rw [String.toList_join, List.flatMap_map, List.flatMap_map]
    simp only [String.toList_append]; rfl
  rw [linesOf, hjoin, textLines_flatMap]
  · simp [Function.comp_def]
  · intro l hl
    obtain ⟨s, hs, rfl⟩ := List.mem_map.1 hl
    exact h s hs

theorem contents_append_empty {lines : List String} (h : ∀ l ∈ lines, hasContent l = true) :
    contents (lines ++ [""]) = lines := by
  have hempty : hasContent "" = false := rfl
  rw [contents, List.filter_append, List.filter_eq_self.2 h, List.filter_singleton, hempty]
  simp

theorem newline_notMem_of_isWord {s : List Char} (h : IsWord s) : '\n' ∉ s := fun hc =>
  absurd (h.2 _ hc) (by decide)

end Text

def Transition.ofEdge (e : Int × Char × Int) : Transition := ⟨e.1, e.2.1, e.2.2⟩

namespace Automaton

variable {d : Automaton}

/-- The edges as transitions. -/
def transitions (d : Automaton) : List Transition := d.edges.map fun e => ⟨e.1, e.2.1, e.2.2⟩

/-- The lines that are written for the final states and some of the edges. -/
def formatSome (d : Automaton) (es : List (Int × Char × Int)) : List String :=
  " ".intercalate (d.finals.map Numeral.toText) :: es.map formatEdge

theorem mem_map_ofEdge {es : List (Int × Char × Int)} {q t : Int} {c : Char} :
    ⟨q, c, t⟩ ∈ es.map Transition.ofEdge ↔ (q, c, t) ∈ es := by
  rw [List.mem_map]
  constructor
  · rintro ⟨⟨q', c', t'⟩, he, h⟩; cases h; exact he
  · intro h; exact ⟨_, h, rfl⟩

theorem mem_transitions {q t : Int} {c : Char} : ⟨q, c, t⟩ ∈ d.transitions ↔ d.target? q c = some t := by
  rw [← mem_edges]; exact mem_map_ofEdge

theorem newline_notMem_formatEdge {q t : Int} {c : Char} (hc : Text.isBlank c = false) :
    '\n' ∉ (formatEdge (q, c, t)).toList := by
  have hq := Text.newline_notMem_of_isWord (Line.isWord_toText q)
  have ht := Text.newline_notMem_of_isWord (Line.isWord_toText t)
  have hcn : '\n' ≠ c := by rintro rfl; cases hc
  simp [formatEdge, hq, ht, hcn]

theorem newline_notMem_formatFinals (ids : List Int) :
    '\n' ∉ (" ".intercalate (ids.map Numeral.toText)).toList := by
  induction ids with
  | nil => simp
  | cons q ids ih =>
    have hq := Text.newline_notMem_of_isWord (Line.isWord_toText q)
    cases ids with
    | nil => simpa using hq
    | cons r ids =>
      rw [List.map_cons, List.map_cons, String.intercalate_cons_cons, String.toList_append,
        String.toList_append, ← List.map_cons]
      simp [hq]
      simpa using ih

theorem isBlank_of_mem_edges {q t : Int} {c : Char} (h : (q, c, t) ∈ d.edges) : Text.isBlank c = false :=
  isBlank_of_mem_alphabet (mem_alphabet_of_target? (mem_edges.1 h))

section

variable {es : List (Int × Char × Int)} (hes : es ⊆ d.edges)
include hes

/-- Every line that is written ends, and no line holds the end of another. -/
theorem linesOf_formatSome :
    Text.linesOf (String.join ((d.formatSome es).map (· ++ "\n"))) = d.formatSome es ++ [""] := by
  apply Text.linesOf_join
  intro line hline
  rcases List.mem_cons.1 hline with rfl | hline
  · exact newline_notMem_formatFinals d.finals
  · obtain ⟨⟨q, c, t⟩, he, rfl⟩ := List.mem_map.1 hline
    exact newline_notMem_formatEdge (isBlank_of_mem_edges (hes he))

/-- The lines that are written are those that have content. -/
theorem contents_formatSome :
    Text.contents (Text.linesOf (String.join ((d.formatSome es).map (· ++ "\n")))) = d.formatSome es := by
  rw [linesOf_formatSome hes, Text.contents_append_empty]
  intro line hline
  apply Text.hasContent_iff_words.2
  rcases List.mem_cons.1 hline with rfl | hline
  · rw [Line.words_formatFinals, ne_eq, List.map_eq_nil_iff]
    exact d.finals_ne_nil
  · obtain ⟨⟨q, c, t⟩, he, rfl⟩ := List.mem_map.1 hline
    rw [Line.words_formatEdge (isBlank_of_mem_edges (hes he))]
    exact List.cons_ne_nil _ _

end

theorem linesOf_format (d : Automaton) : Text.linesOf d.format = d.formatLines ++ [""] :=
  linesOf_formatSome (List.Subset.refl d.edges)

theorem contents_format (d : Automaton) : Text.contents (Text.linesOf d.format) = d.formatLines :=
  contents_formatSome (List.Subset.refl d.edges)

section

variable (hq : ∀ q ∈ d.states, Numeral.Short q) (hf : ∀ q ∈ d.finals, Numeral.Short q)
include hq

theorem reads_of_mem_edges {q t : Int} {c : Char} (h : (q, c, t) ∈ d.edges) :
    Line.Reads (formatEdge (q, c, t)) ⟨q, c, t⟩ := by
  have ht := mem_edges.1 h
  exact Line.reads_formatEdge (isBlank_of_mem_edges h) (hq q (mem_states.2 (contains_source ht)))
    (hq t (mem_states.2 (contains_of_target? ht)))

include hf

/-- The lines of some of the edges are read as these edges. -/
theorem ofText_formatSome {es : List (Int × Char × Int)} (hes : es ⊆ d.edges) :
    Builder.ofText (String.join ((d.formatSome es).map (· ++ "\n"))) =
      .ok (Builder.collected d.finals (es.map Transition.ofEdge)) := by
  have hts : List.Forall₂ Line.Reads (es.map formatEdge) (es.map Transition.ofEdge) := by
    rw [List.forall₂_map_left_iff, List.forall₂_map_right_iff, List.forall₂_same]
    rintro ⟨q, c, t⟩ he
    exact reads_of_mem_edges hq (hes he)
  exact Builder.ofText_eq_ok_iff.2
    ⟨_, _, d.finals, _, contents_formatSome hes, Line.lists_formatFinals hf, hts, rfl⟩

/-- The text of an automaton is read as its final states and its edges. -/
theorem ofText_format : Builder.ofText d.format = .ok (Builder.collected d.finals d.transitions) :=
  ofText_formatSome hq hf (List.Subset.refl d.edges)

end

/-- The rows that some edges make. -/
def rowsOfEdges (es : List (Int × Char × Int)) : Rows Int Char :=
  (es.map Transition.ofEdge).foldl Rows.addTransition ∅

theorem target?_rowsOfEdges_iff {es : List (Int × Char × Int)} (hes : es ⊆ d.edges) {q t : Int} {c : Char} :
    (rowsOfEdges es).target? q c = some t ↔ (q, c, t) ∈ es := by
  rw [rowsOfEdges, target?_foldl_addTransition, Rows.target?_empty, Option.or_none]
  constructor
  · intro h; exact mem_map_ofEdge.1 (mem_of_lastTarget? h)
  · intro h
    cases hlast : lastTarget? (es.map Transition.ofEdge) q c with
    | none => exact absurd (mem_map_ofEdge.2 h) (lastTarget?_eq_none_iff.1 hlast t)
    | some u =>
      -- both are edges of the automaton, which has one target only
      have hu := mem_edges.1 (hes (mem_map_ofEdge.1 (mem_of_lastTarget? hlast)))
      rw [mem_edges.1 (hes h)] at hu
      exact hu.symm

theorem contains_rowsOfEdges_iff {es : List (Int × Char × Int)} {q : Int} :
    (rowsOfEdges es).contains q = true ↔ ∃ c t, (q, c, t) ∈ es := by
  rw [rowsOfEdges, contains_foldl_addTransition]
  show (_ || false) = true ↔ _
  rw [Bool.or_false, List.any_eq_true]
  constructor
  · rintro ⟨⟨p, c, t⟩, ht, hp⟩
    obtain rfl := eq_of_beq hp
    exact ⟨c, t, mem_map_ofEdge.1 ht⟩
  · rintro ⟨c, t, h⟩
    exact ⟨⟨q, c, t⟩, mem_map_ofEdge.2 h, beq_self_eq_true q⟩

/-- The rows that the edges of an automaton make. -/
def collectedRows (d : Automaton) : Rows Int Char := d.transitions.foldl Rows.addTransition ∅

theorem target?_collectedRows (d : Automaton) (q : Int) (c : Char) :
    d.collectedRows.target? q c = d.target? q c := by
  ext t
  rw [← mem_edges]
  exact target?_rowsOfEdges_iff (List.Subset.refl d.edges)

/-- With an edge anywhere no state is lost. -/
theorem contains_collectedRows (h : d.edges ≠ []) (q : Int) :
    d.collectedRows.contains q = d.rows.contains q := by
  rw [Bool.eq_iff_iff, contains_iff_of_edges h]
  simp only [← mem_edges]
  exact contains_rowsOfEdges_iff

theorem mem_symbols_collectedRows {c : Char} : c ∈ d.collectedRows.symbols ↔ c ∈ d.rows.symbols := by
  simp only [Rows.mem_symbols_iff, target?_collectedRows]; rfl

theorem complete_collectedRows (h : d.edges ≠ []) :
    Complete initial d.collectedRows d.finals d.collectedRows.symbols := by
  have hd := complete_iff.1 d.complete
  rw [complete_iff]
  simp only [contains_collectedRows h, target?_collectedRows, mem_symbols_collectedRows]
  exact hd

theorem holds_collected_transitions (d : Automaton) :
    (Builder.collected d.finals d.transitions).Holds d.collectedRows := by
  refine Builder.holds_collected d.finals fun t ht => ?_
  obtain ⟨q, c, u⟩ := t
  exact isBlank_of_mem_alphabet (mem_alphabet_of_target? (mem_transitions.1 ht))

section

variable (hq : ∀ q ∈ d.states, Numeral.Short q) (hf : ∀ q ∈ d.finals, Numeral.Short q)
include hq hf

theorem readBack_eq : d.readBack = (Builder.collected d.finals d.transitions).freeze.2 := by
  rw [readBack, Automaton.ofText, ofText_format hq hf]; rfl

theorem exists_readBack (h : d.edges ≠ []) : ∃ e, d.readBack = .ok e ∧ Alike e d := by
  obtain ⟨e, he, hrows, hfinals⟩ := Builder.exists_freeze_collected d.holds_collected_transitions
    d.finals_ascending (complete_collectedRows h)
  refine ⟨e, (readBack_eq hq hf).trans he, fun q => ?_, fun q c => ?_, hfinals⟩
  · rw [hrows, contains_collectedRows h]
  · show e.rows.target? q c = _
    rw [hrows, target?_collectedRows]

theorem readBack_of_edges_eq_nil (h : d.edges = []) :
    d.readBack = .error (.invalid .missingInitialState) := by
  -- no state is left in the text, not even the initial one
  have hrows : d.collectedRows = ∅ := by rw [collectedRows, transitions, h]; rfl
  rw [readBack_eq hq hf, Builder.freeze_collected_eq_error_iff d.holds_collected_transitions, hrows]; rfl

end

theorem readBack_format {d : Automaton} (hq : ∀ q ∈ d.states, Numeral.Short q)
    (hf : ∀ q ∈ d.finals, Numeral.Short q) :
    (d.edges ≠ [] → ∃ e, d.readBack = .ok e ∧ (e == d) = true ∧ e.states = d.states ∧
      e.edges = d.edges ∧ e.finals = d.finals ∧ e.alphabet = d.alphabet) ∧
    (d.edges = [] → d.alphabet = [] ∧ ∃ b, Builder.ofText d.format = .ok b ∧
      b.freeze.2 = .error (.invalid .missingInitialState)) ∧
    ((∃ e, d.readBack = .ok e ∧ (e == d) = true) ↔ d.edges ≠ []) := by
  refine ⟨fun h => ?_, fun h => ?_, ?_, fun h => ?_⟩
  · obtain ⟨e, he, halike⟩ := exists_readBack hq hf h
    exact ⟨e, he, halike.beq, halike.states, halike.edges, halike.finals, halike.alphabet⟩
  · have hfreeze := readBack_of_edges_eq_nil hq hf h
    rw [readBack_eq hq hf] at hfreeze
    exact ⟨alphabet_eq_nil_iff.2 h, _, ofText_format hq hf, hfreeze⟩
  · rintro ⟨e, he, -⟩ h
    rw [readBack_of_edges_eq_nil hq hf h] at he; cases he
  · obtain ⟨e, he, halike⟩ := exists_readBack hq hf h
    exact ⟨e, he, halike.beq⟩

/-- Symbols that look like numerals and a final state without a row; and a state without edges. -/
theorem readBack_format_signs :
    (∃ d, ofText "+7 0\n0 - 1\n0 5 0\n1 - 0\n1 5 1\n" = .ok d ∧ d.finals = [0, 7] ∧
      ∃ e, d.readBack = .ok e ∧ (e == d) = true) ∧
    ∃ d : Automaton, d.states = [0] ∧ d.edges = [] ∧ ¬ ∃ e, d.readBack = .ok e ∧ (e == d) = true := by
  constructor
  · let ts : List Transition := [⟨0, '-', 1⟩, ⟨0, '5', 0⟩, ⟨1, '-', 0⟩, ⟨1, '5', 1⟩]
    obtain ⟨d, hd, hq, hf, he, hids⟩ : ∃ d, (Builder.collected [7, 0] ts).freeze.2 = .ok d ∧
        (∀ q ∈ d.states, Numeral.Short q) ∧ (∀ q ∈ d.finals, Numeral.Short q) ∧ d.edges ≠ [] ∧
        d.finals = [0, 7] := ⟨_, rfl, by decide, by decide, by decide, rfl⟩
    obtain ⟨e, hread, hbeq, -⟩ := (readBack_format hq hf).1 he
    exact ⟨d, hd, hids, e, hread, hbeq⟩
  · let d : Automaton := ⟨.ofList [(0, ∅)], [0], failure?_eq_none_iff.1 rfl, by decide,
      fun c hc => absurd hc List.not_mem_nil⟩
    have hd := readBack_format (d := d) (by decide) (by decide)
    exact ⟨d, rfl, rfl, fun h => hd.2.2.1 h rfl⟩

end Automaton

end Acceptor
