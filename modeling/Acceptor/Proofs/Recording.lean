import Acceptor.Proofs.Additions
import Acceptor.Proofs.Meaning
import Acceptor.Proofs.Source
import Mathlib.Data.List.Dedup

/-!
# Reading is adding

The lines that are not blank list final states and then transitions (`Listing`). Reading them gives the builder
on which these are added one after the other (`ofSource_lines_eq_ok_iff`), and what such a builder shows are
the final states as listed and of the transitions the last one for each source and symbol (`Records`).
Lines that follow are further additions (`ofSource_lines_eq_run`).
-/

namespace Acceptor

/-- The pieces are texts, or the bytes of texts, that list `ids` and `ts`. -/
def Piece.Listing (pieces : List Piece) (ids : List Int) (ts : List Transition) : Prop :=
  ∃ lines, List.Forall₂ Piece.Holds pieces lines ∧ Acceptor.Listing lines ids ts

theorem Piece.forall₂_holds_iff {pieces : List Piece} {lines : List String} :
    List.Forall₂ Piece.Holds pieces lines ↔ pieces.map Piece.raw = lines.map .ok := by
  rw [← forall₂_eq_ok_iff]
  simp only [Piece.raw_eq_ok_iff]

theorem Piece.Listing.unique {pieces : List Piece} {ids ids' : List Int} {ts ts' : List Transition}
    (h : Piece.Listing pieces ids ts) (h' : Piece.Listing pieces ids' ts') : ids = ids' ∧ ts = ts' := by
  obtain ⟨lines, hp, h⟩ := h
  obtain ⟨lines', hp', h'⟩ := h'
  obtain rfl := List.right_unique_forall₂' (fun _ _ _ hs ht => hs.unique ht) hp hp'
  exact h.unique h'

/-- If nothing ends the lines early, all of them have been decoded. -/
theorem exists_eq_map_ok {lines : List Text.RawLine} {number : Nat}
    (h : (contentLinesFrom number lines).2 = none) : ∃ texts : List String, lines = texts.map .ok := by
  induction lines generalizing number with
  | nil => exact ⟨[], rfl⟩
  | cons line lines ih =>
    cases line with
    | error byte => cases h
    | ok s =>
      have htail : (contentLinesFrom (number + 1) lines).2 = none := h
      obtain ⟨texts, rfl⟩ := ih htail
      exact ⟨s :: texts, rfl⟩

/-- The symbols of the transitions from `q`, once each. -/
def symbolsFrom (ts : List Transition) (q : Int) : List Char :=
  ((ts.filter fun t => t.source == q).map (·.symbol)).dedup

theorem exists_lastTarget?_iff {ts : List Transition} {q : Int} {c : Char} :
    (∃ t, lastTarget? ts q c = some t) ↔ ∃ t ∈ ts, t.source = q ∧ t.symbol = c := by
  rw [← Option.ne_none_iff_exists', ne_eq, lastTarget?_eq_none_iff]
  simp only [not_forall, not_not]
  constructor
  · rintro ⟨t, ht⟩; exact ⟨_, ht, rfl, rfl⟩
  · rintro ⟨⟨_, _, t⟩, ht, rfl, rfl⟩; exact ⟨t, ht⟩

theorem mem_symbolsFrom {ts : List Transition} {q : Int} {c : Char} :
    c ∈ symbolsFrom ts q ↔ ∃ t, lastTarget? ts q c = some t := by
  rw [exists_lastTarget?_iff]
  simp only [symbolsFrom, List.mem_dedup, List.mem_map, List.mem_filter, beq_iff_eq, and_assoc]

namespace Builder

variable {b : Builder} {pieces : List Piece} {ids : List Int} {ts : List Transition}

theorem ofSource_lines_eq_ok_iff :
    ofSource (.lines pieces) = .ok b ↔
      ∃ lines header rest ids ts, List.Forall₂ Piece.Holds pieces lines ∧
        Text.contents lines = header :: rest ∧ Line.Lists header ids ∧ List.Forall₂ Line.Reads rest ts ∧
        b = collected ids ts := by
  show ofLines (pieces.map Piece.raw) = .ok b ↔ _
  constructor
  · intro h
    obtain ⟨header, rest, ids, ts, hc, -⟩ := ofLines_eq_ok_iff.1 h
    have hstop : (contentLinesFrom 1 (pieces.map Piece.raw)).2 = none := congrArg Prod.snd hc
    obtain ⟨lines, hlines⟩ := exists_eq_map_ok hstop
    rw [hlines] at h
    exact ⟨lines, (ofLines_text_eq_ok_iff.1 h).imp fun _ ⟨rest, ids, ts, h⟩ =>
      ⟨rest, ids, ts, Piece.forall₂_holds_iff.2 hlines, h⟩⟩
  · rintro ⟨lines, header, rest, ids, ts, hp, h⟩
    rw [Piece.forall₂_holds_iff.1 hp]
    exact ofLines_text_eq_ok_iff.2 ⟨header, rest, ids, ts, h⟩

/-- What the builder shows are the final states `ids` and the transitions `ts`, of which a later one takes
the place of an earlier one with the same source and symbol. -/
structure Records (b : Builder) (ids : List Int) (ts : List Transition) : Prop where
  finals : b.finals = ids
  stateIds : ∀ q, q ∈ b.states.keys ↔ ∃ t ∈ ts, t.source = q
  alphabet : ∀ c, c ∈ b.alphabet ↔ ∃ t ∈ ts, t.symbol = c
  noState : ∀ q, (∀ t ∈ ts, t.source ≠ q) → b.state? (.int q) = .ok none
  state : ∀ q, (∃ t ∈ ts, t.source = q) → ∃ s, b.state? (.int q) = .ok (some (q, s)) ∧
    (∀ c, s.target? (.char c) = .ok ((lastTarget? ts q c).map Value.int)) ∧
    s.size = (symbolsFrom ts q).length

theorem records_collected (ids : List Int) (h : ∀ t ∈ ts, Text.isBlank t.symbol = false) :
    (collected ids ts).Records ids ts := by
  have hb := holds_collected ids h
  have htarget : ∀ q c, (ts.foldl Rows.addTransition ∅).target? q c = lastTarget? ts q c := fun q c => by
    rw [target?_foldl_addTransition, Rows.target?_empty, Option.or_none]
  have hstates : ∀ q, (collected ids ts).states.contains q = true ↔ ∃ t ∈ ts, t.source = q := fun q => by
    rw [hb.contains_states, contains_foldl_addTransition]
    show (_ || false) = true ↔ _
    simp only [Bool.or_false, List.any_eq_true, beq_iff_eq]
  refine ⟨finals_collected ids ts, fun q => ?_, fun c => ?_, fun q hq => ?_, fun q hq => ?_⟩
  · rw [OrderedMap.mem_keys_iff, hstates]
  · rw [hb.alphabet, mem_ascending, Rows.mem_symbols_iff]
    simp only [htarget]
    constructor
    · rintro ⟨q, t, ht⟩; exact ⟨_, mem_of_lastTarget? ht, rfl⟩
    · rintro ⟨t, ht, rfl⟩; exact ⟨t.source, exists_lastTarget?_iff.2 ⟨t, ht, rfl, rfl⟩⟩
  · have hnone : (collected ids ts).states.find? q = none := by
      rw [Option.eq_none_iff_forall_ne_some]
      intro s hs
      obtain ⟨t, ht, hsource⟩ := (hstates q).1 (OrderedMap.contains_iff.2 ⟨s, hs⟩)
      exact hq t ht hsource
    show Except.ok (((collected ids ts).states.find? q).map _) = _
    rw [hnone]; rfl
  · obtain ⟨s, hs⟩ := OrderedMap.contains_iff.1 ((hstates q).2 hq)
    refine ⟨s, state?_eq_some_iff.2 ⟨rfl, rfl, hs⟩, fun c => ?_, ?_⟩
    · rw [hb.target?_state hs, htarget]
    · rw [hb.size_state hs]
      refine OrderedMap.size_eq_length (List.nodup_dedup _) fun c => ?_
      rw [OrderedMap.mem_keys_iff, OrderedMap.contains_iff]
      simp only [Rows.find?_rowOf, htarget]
      exact mem_symbolsFrom.symm

/-- The additions of some final states and then of some transitions. -/
def additions (ids : List Int) (ts : List Transition) : List Call :=
  ids.map Call.final ++ ts.map Call.transition

theorem isSome_of_mem_additions (ids : List Int) (h : ∀ t ∈ ts, Text.isBlank t.symbol = false) :
    ∀ c ∈ additions ids ts, c.final?.isSome ∨ c.transition?.isSome := by
  intro c hc
  rcases List.mem_append.1 hc with hc | hc
  · obtain ⟨q, -, rfl⟩ := List.mem_map.1 hc
    exact .inl rfl
  · obtain ⟨t, ht, rfl⟩ := List.mem_map.1 hc
    exact .inr (Option.isSome_iff_exists.2 ⟨t, Call.transition?_eq_some_iff.2 ⟨rfl, h t ht⟩⟩)

theorem run_additions (hs : b.spent = false) (ids : List Int) (h : ∀ t ∈ ts, Text.isBlank t.symbol = false) :
    b.run (additions ids ts) = ts.foldl put { b with finals := b.finals ++ ids } := by
  have hfinals : (additions ids ts).filterMap Call.final? = ids := by
    have hnone : (ts.map Call.transition).filterMap Call.final? = [] := by
      rw [List.filterMap_map]; exact List.filterMap_eq_nil_iff.2 fun _ _ => rfl
    rw [additions, List.filterMap_append, hnone, List.append_nil, List.filterMap_map]
    exact List.filterMap_some
  have hts : (additions ids ts).filterMap Call.transition? = ts := by
    have hnone : (ids.map Call.final).filterMap Call.transition? = [] := by
      rw [List.filterMap_map]; exact List.filterMap_eq_nil_iff.2 fun _ _ => rfl
    rw [additions, List.filterMap_append, hnone, List.nil_append, List.filterMap_map]
    refine (List.filterMap_eq_map_iff_forall_eq_some (g := id)).2 (fun t ht => ?_) |>.trans (List.map_id ts)
    exact Call.transition?_eq_some_iff.2 ⟨rfl, h t ht⟩
  have hattempts : ∀ c ∈ additions ids ts, c.attempts = false := by
    intro c hc
    rcases List.mem_append.1 hc with hc | hc <;> obtain ⟨_, -, rfl⟩ := List.mem_map.1 hc <;> rfl
  rw [run_eq hs hattempts, hfinals, hts]

theorem run_transitions (hs : b.spent = false) (h : ∀ t ∈ ts, Text.isBlank t.symbol = false) :
    b.run (ts.map Call.transition) = ts.foldl put b := by
  have hrun := run_additions hs [] h
  rw [List.append_nil] at hrun
  exact hrun

/-- Reading lines is adding what they list, and so it is for lines behind them. -/
theorem ofSource_lines_eq_run (h : ofSource (.lines pieces) = .ok b) :
    (∃ ids ts, Piece.Listing pieces ids ts) ∧
    ∀ ids ts, Piece.Listing pieces ids ts →
      empty.run (additions ids ts) = b ∧
      (∀ reply ∈ empty.replies (additions ids ts), reply = .ok .done) ∧
      b.Records ids ts ∧
      ∀ more lines us, List.Forall₂ Piece.Holds more lines →
        List.Forall₂ Line.Reads (Text.contents lines) us →
        ofSource (.lines (pieces ++ more)) = .ok (b.run (us.map Call.transition)) ∧
        ∀ reply ∈ b.replies (us.map Call.transition), reply = .ok .done := by
  obtain ⟨lines, header, rest, ids, ts, hp, hc, hids, hts, rfl⟩ := ofSource_lines_eq_ok_iff.1 h
  have hlisting : Piece.Listing pieces ids ts :=
    ⟨lines, hp, header, rest, hc, hids.denotes, hts.imp fun _ _ ht => ht.means⟩
  have hblank := isBlank_of_reads hts
  have hspent := spent_collected ids ts
  refine ⟨⟨ids, ts, hlisting⟩, fun ids' ts' hlisting' => ?_⟩
  obtain ⟨rfl, rfl⟩ := hlisting.unique hlisting'
  refine ⟨run_additions rfl ids hblank, eq_done_of_mem_replies rfl (isSome_of_mem_additions ids hblank),
    records_collected ids hblank, fun more lines' us hmore hus => ⟨?_, ?_⟩⟩
  · rw [run_transitions hspent (isBlank_of_reads hus), collected, ← List.foldl_append]
    have hcontents : Text.contents (lines ++ lines') = header :: (rest ++ Text.contents lines') := by
      rw [Text.contents, List.filter_append]
      exact congrArg (· ++ Text.contents lines') hc
    exact ofSource_lines_eq_ok_iff.2 ⟨lines ++ lines', header, _, ids, ts ++ us, List.rel_append hp hmore,
      hcontents, hids, List.rel_append hts hus, rfl⟩
  · exact eq_done_of_mem_replies hspent
      (isSome_of_mem_additions [] (isBlank_of_reads hus))

/-- A repeated final state, a line of bytes, a blank line, and a transition that overwrites another. -/
theorem ofSource_lines_eq_run_overwritten :
    let pieces : List Piece := [.text "1 1\n", .bytes [0x30, 0x20, 0x61, 0x20, 0x31], .text "\n", .text "00 a 2\n"]
    let ts : List Transition := [⟨0, 'a', 1⟩, ⟨0, 'a', 2⟩]
    ∃ b, ofSource (.lines pieces) = .ok b ∧ Piece.Listing pieces [1, 1] ts ∧
      empty.run (additions [1, 1] ts) = b ∧ b.Records [1, 1] ts ∧
      ofSource (.lines (pieces ++ [.text "2 b 0\n"])) = .ok (b.run [.transition ⟨2, 'b', 0⟩]) := by
  intro pieces ts
  have hb : ofSource (.lines pieces) = .ok (collected [1, 1] ts) := rfl
  have hids : Line.Lists "1 1\n" [1, 1] := .cons rfl (.cons rfl .nil)
  have hts : List.Forall₂ Line.Reads ["0 a 1", "00 a 2\n"] ts :=
    .cons ⟨"0", "1", rfl, rfl, rfl⟩ <| .cons ⟨"00", "2", rfl, rfl, rfl⟩ .nil
  have hus : List.Forall₂ Line.Reads (Text.contents ["2 b 0\n"]) [⟨2, 'b', 0⟩] :=
    .cons ⟨"2", "0", rfl, rfl, rfl⟩ .nil
  have hlisting : Piece.Listing pieces [1, 1] ts :=
    ⟨["1 1\n", "0 a 1", "\n", "00 a 2\n"],
      .cons (.text _) <| .cons (.bytes "0 a 1") <| .cons (.text _) <| .cons (.text _) .nil,
      "1 1\n", _, rfl, hids.denotes, hts.imp fun _ _ ht => ht.means⟩
  obtain ⟨hrun, -, hrecords, happend⟩ := (ofSource_lines_eq_run hb).2 [1, 1] ts hlisting
  have hmore : List.Forall₂ Piece.Holds [.text "2 b 0\n"] ["2 b 0\n"] := .cons (.text _) .nil
  exact ⟨_, hb, hlisting, hrun, hrecords, (happend _ _ _ hmore hus).1⟩

end Builder

end Acceptor
