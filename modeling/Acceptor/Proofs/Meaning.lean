import Acceptor.Proofs.Reading

/-!
# The language that a text describes

`Describes s ids ts`: on its first line that is not blank the text `s` lists the final states `ids`, and
on each other one a transition, together `ts`. A text that is read describes exactly one such pair. An
automaton that is made from it accepts the words that lead from the initial state to a final state along
the last transitions given (`accepts_iff_of_ofText`).
-/

namespace Acceptor

/-- The lines of a text. -/
def Text.linesOf (s : String) : List String := (textLines s.toList).map String.ofList

theorem Numeral.Denotes.unique {s : List Char} {m n : Int} (hm : Denotes s m) (hn : Denotes s n) : m = n := by
  obtain ⟨b, hb, rfl⟩ := shape?_of_denotes hm
  obtain ⟨c, hc, rfl⟩ := shape?_of_denotes hn
  rw [hb] at hc; cases hc; rfl

theorem Line.Means.unique {line : String} {t u : Transition} (ht : Means line t) (hu : Means line u) :
    t = u := by
  obtain ⟨source, target, hw, hs, ht⟩ := ht
  obtain ⟨source', target', hw', hs', hu⟩ := hu
  rw [hw] at hw'
  simp only [List.cons.injEq, and_true] at hw'
  obtain ⟨rfl, hc, rfl⟩ := hw'
  have hsymbol : t.symbol = u.symbol := by
    simpa using congrArg String.toList hc
  cases t; cases u
  cases hs.unique hs'; cases ht.unique hu; cases hsymbol; rfl

/-- The lines list the final states `ids` and then the transitions `ts`, on those that are not blank. -/
def Listing (lines : List String) (ids : List Int) (ts : List Transition) : Prop :=
  ∃ header rest, Text.contents lines = header :: rest ∧
    List.Forall₂ (fun token q => Numeral.Denotes token.toList q) (Text.words header) ids ∧
    List.Forall₂ Line.Means rest ts

theorem Listing.unique {lines : List String} {ids ids' : List Int} {ts ts' : List Transition}
    (h : Listing lines ids ts) (h' : Listing lines ids' ts') : ids = ids' ∧ ts = ts' := by
  obtain ⟨header, rest, hc, hids, hts⟩ := h
  obtain ⟨_, _, hc', hids', hts'⟩ := h'
  rw [hc] at hc'; cases hc'
  exact ⟨List.right_unique_forall₂' (fun _ _ _ hm hn => hm.unique hn) hids hids',
    List.right_unique_forall₂' (fun _ _ _ ht hu => ht.unique hu) hts hts'⟩

/-- The text lists the final states `ids` and then the transitions `ts`, on the lines that are not
blank. -/
def Describes (s : String) (ids : List Int) (ts : List Transition) : Prop :=
  ∃ header lines, Text.contents (Text.linesOf s) = header :: lines ∧
    List.Forall₂ (fun token q => Numeral.Denotes token.toList q) (Text.words header) ids ∧
    List.Forall₂ Line.Means lines ts

theorem Describes.unique {s : String} {ids ids' : List Int} {ts ts' : List Transition}
    (h : Describes s ids ts) (h' : Describes s ids' ts') : ids = ids' ∧ ts = ts' :=
  Listing.unique h h'

/-- Transitions with the same key overwrite each other. -/
def Transition.key (t : Transition) : Int × Char := (t.source, t.symbol)

/-- The target of the last transition from `q` with the symbol `c`. -/
def lastTarget? (ts : List Transition) (q : Int) (c : Char) : Option Int :=
  (ts.reverse.find? fun t => t.source == q && t.symbol == c).map (·.target)

theorem mem_of_lastTarget? {ts : List Transition} {q t : Int} {c : Char} (h : lastTarget? ts q c = some t) :
    ⟨q, c, t⟩ ∈ ts := by
  obtain ⟨u, hu, rfl⟩ := Option.map_eq_some_iff.1 h
  have hkey := List.find?_some hu
  simp only [Bool.and_eq_true, beq_iff_eq] at hkey
  obtain ⟨rfl, rfl⟩ := hkey
  exact List.mem_reverse.1 (List.mem_of_find?_eq_some hu)

theorem lastTarget?_eq_none_iff {ts : List Transition} {q : Int} {c : Char} :
    lastTarget? ts q c = none ↔ ∀ t, ⟨q, c, t⟩ ∉ ts := by
  rw [lastTarget?, Option.map_eq_none_iff, List.find?_eq_none]
  constructor
  · intro h t ht
    exact h _ (List.mem_reverse.2 ht) (by simp)
  · intro h u hu hkey
    simp only [Bool.and_eq_true, beq_iff_eq] at hkey
    obtain ⟨rfl, rfl⟩ := hkey
    exact h u.target (List.mem_reverse.1 hu)

/-- Among rows to which transitions are added, the last one that fits counts. -/
theorem target?_foldl_addTransition (ts : List Transition) (rows : Rows Int Char) (q : Int) (c : Char) :
    (ts.foldl Rows.addTransition rows).target? q c = (lastTarget? ts q c).or (rows.target? q c) := by
  induction ts generalizing rows with
  | nil => rfl
  | cons t ts ih =>
    rw [List.foldl_cons, ih, Rows.addTransition, Rows.target?_addEdge, lastTarget?, lastTarget?,
      List.reverse_cons, List.find?_append, List.find?_singleton, Option.map_or, Option.or_assoc]
    split <;> rfl

theorem contains_foldl_addTransition (ts : List Transition) (rows : Rows Int Char) (q : Int) :
    (ts.foldl Rows.addTransition rows).contains q = (ts.any (·.source == q) || rows.contains q) := by
  induction ts generalizing rows with
  | nil => rfl
  | cons t ts ih =>
    rw [List.foldl_cons, ih, Rows.addTransition, Rows.contains_addEdge, List.any_cons]
    cases t.source == q <;> simp

namespace Builder

theorem ofText_eq_ok_iff {s : String} {b : Builder} :
    ofText s = .ok b ↔
      ∃ header lines ids ts, Text.contents (Text.linesOf s) = header :: lines ∧ Line.Lists header ids ∧
        List.Forall₂ Line.Reads lines ts ∧ b = collected ids ts := by
  rw [← ofLines_text_eq_ok_iff, Text.linesOf, List.map_map]; rfl

/-- The numbers of states that are read can be written. -/
theorem short_of_ofLines {lines : List Text.RawLine} {b : Builder} {d : Automaton}
    (hb : ofLines lines = .ok b) (hd : b.freeze.2 = .ok d) : ∀ q ∈ d.states, Numeral.Short q := by
  obtain ⟨header, rest, ids, ts, -, -, hts, rfl⟩ := ofLines_eq_ok_iff.1 hb
  have hread (t : Transition) (ht : t ∈ ts) : ∃ line, Line.Reads line t := by
    obtain ⟨line, -, hline⟩ := exists_of_forall₂ hts ht
    exact ⟨line.2, hline⟩
  have hholds := holds_collected ids fun t ht => (hread t ht).elim fun _ hline => hline.isBlank
  obtain ⟨-, hrows, -⟩ := (hholds.freeze_eq_ok_iff (spent_collected ids ts)).1 hd
  intro q hq
  rw [Automaton.mem_states, hrows, contains_foldl_addTransition, Bool.or_eq_true] at hq
  rcases hq with hq | hq
  · obtain ⟨t, ht, hsource⟩ := List.any_eq_true.1 hq
    obtain ⟨line, hline⟩ := hread t ht
    rw [← eq_of_beq hsource]; exact hline.short_source
  · cases hq

/-- What is read from a text is what the text describes. -/
theorem exists_describes {s : String} {b : Builder} (h : ofText s = .ok b) :
    ∃ ids ts, Describes s ids ts ∧ b = collected ids ts ∧
      b.Holds (ts.foldl Rows.addTransition ∅) := by
  obtain ⟨header, lines, ids, ts, hc, hids, hts, rfl⟩ := ofText_eq_ok_iff.1 h
  exact ⟨ids, ts, ⟨header, lines, hc, hids.denotes, hts.imp fun _ _ ht => ht.means⟩, rfl,
    holds_collected ids (isBlank_of_reads hts)⟩

end Builder

namespace Automaton

theorem accepts_iff_of_ofText {s : String} {b : Builder} {d : Automaton} (hb : Builder.ofText s = .ok b)
    (hd : b.freeze.2 = .ok d) :
    (∃ ids ts, Describes s ids ts) ∧
    ∀ ids ts, Describes s ids ts →
      (∀ w, d.accepts w = true ↔ ∃ q ∈ ids, w.toList.foldlM (lastTarget? ts) 0 = some q) ∧
      (d.accepts "" = true ↔ 0 ∈ ids) ∧
      (∀ w, ∀ c ∈ w.toList, (∀ t ∈ ts, t.symbol ≠ c) → d.accepts w = false) ∧
      ∀ u q, d.runFrom 0 u = some q → d.rows.contains q = true := by
  obtain ⟨ids, ts, hs, rfl, hrows⟩ := Builder.exists_describes hb
  obtain ⟨-, hdrows, hfinals⟩ := (hrows.freeze_eq_ok_iff (Builder.spent_collected ids ts)).1 hd
  rw [Builder.finals_collected] at hfinals
  -- the edges of `d` are the transitions that were read, each overwritten by the later ones
  have htarget : d.target? = lastTarget? ts := by
    funext q c
    show d.rows.target? q c = _
    rw [hdrows, target?_foldl_addTransition, Rows.target?_empty, Option.or_none]
  have hword (w : String) :
      d.accepts w = true ↔ ∃ q ∈ ids, w.toList.foldlM (lastTarget? ts) 0 = some q := by
    rw [accepts_iff, hfinals]
    simp only [mem_ascending, runFrom_eq_foldlM, htarget, and_comm]; rfl
  refine ⟨⟨ids, ts, hs⟩, fun ids' ts' hs' => ?_⟩
  obtain ⟨rfl, rfl⟩ := hs.unique hs'
  refine ⟨hword, ?_, fun w c hc hts => ?_, fun u q hq => contains_of_runFrom d.contains_initial hq⟩
  · rw [hword]; simp
  · have halphabet : c ∉ d.alphabet := by
      rw [mem_alphabet]
      rintro ⟨q, t, ht⟩
      rw [htarget] at ht
      exact hts _ (mem_of_lastTarget? ht) rfl
    rw [accepts, run, runFrom_eq_none hc halphabet]; rfl

/-- Ids in several spellings, transitions given twice and a final state without a row. -/
theorem accepts_iff_of_ofText_overwritten :
    ∃ b d ts, Builder.ofText "0 +7\n0 a 0\n\n00 a 1\n1 a 1\n+1 a -0\n" = .ok b ∧ b.freeze.2 = .ok d ∧
      Describes "0 +7\n0 a 0\n\n00 a 1\n1 a 1\n+1 a -0\n" [0, 7] ts ∧
      d.accepts "aa" = true ∧ d.accepts "ab" = false := by
  let ts : List Transition := [⟨0, 'a', 0⟩, ⟨0, 'a', 1⟩, ⟨1, 'a', 1⟩, ⟨1, 'a', 0⟩]
  have hids : Line.Lists "0 +7" [0, 7] := .cons rfl (.cons rfl .nil)
  have hts : List.Forall₂ Line.Reads ["0 a 0", "00 a 1", "1 a 1", "+1 a -0"] ts :=
    .cons ⟨"0", "0", rfl, rfl, rfl⟩ <| .cons ⟨"00", "1", rfl, rfl, rfl⟩ <|
      .cons ⟨"1", "1", rfl, rfl, rfl⟩ <| .cons ⟨"+1", "-0", rfl, rfl, rfl⟩ .nil
  have hb : Builder.ofText "0 +7\n0 a 0\n\n00 a 1\n1 a 1\n+1 a -0\n" = .ok (Builder.collected [0, 7] ts) :=
    Builder.ofText_eq_ok_iff.2 ⟨"0 +7", _, [0, 7], ts, rfl, hids, hts, rfl⟩
  obtain ⟨d, hd⟩ : ∃ d, (Builder.collected [0, 7] ts).freeze.2 = .ok d := by
    rw [Builder.freeze_of_unspent rfl]; exact ⟨_, rfl⟩
  have hs : Describes "0 +7\n0 a 0\n\n00 a 1\n1 a 1\n+1 a -0\n" [0, 7] ts :=
    ⟨"0 +7", _, rfl, hids.denotes, hts.imp fun _ _ ht => ht.means⟩
  have h := (accepts_iff_of_ofText hb hd).2 [0, 7] ts hs
  exact ⟨_, d, ts, hb, hd, hs, (h.1 "aa").2 ⟨0, by simp, rfl⟩,
    h.2.2.1 "ab" 'b' (by decide) (by decide)⟩

end Automaton

end Acceptor
