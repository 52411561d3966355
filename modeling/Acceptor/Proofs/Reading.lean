import Acceptor.Description.Reading
import Acceptor.Proofs.Builder
import Acceptor.Proofs.Line

/-!
# What reading collects

`collected ids ts` is the builder with the final states `ids` and, one behind the other, the transitions
`ts`. Reading succeeds exactly on the lines whose content is a list of final states and then one
transition each, and gives the builder that collects them (`ofLines_eq_ok_iff`). For lines of text the
content are the lines that are not blank (`ofLines_text_eq_ok_iff`).
-/

namespace Acceptor

namespace Text

/-- Some character of the line is not blank. -/
def hasContent (line : String) : Bool := line.toList.any (!isBlank ·)

/-- The lines that are not blank. -/
def contents (lines : List String) : List String := lines.filter hasContent

theorem trim_ne_empty_iff {line : String} : trim line ≠ "" ↔ hasContent line = true := by
  rw [ne_eq, trim_eq_empty_iff, hasContent]; simp

theorem hasContent_iff_words {line : String} : hasContent line = true ↔ words line ≠ [] := by
  rw [← trim_ne_empty_iff, ne_eq, trim_eq_empty_iff, ← blankSeparated_eq_nil_iff, words, ne_eq,
    List.map_eq_nil_iff]

end Text

section

variable {line : String} (number : Nat) (lines : List Text.RawLine)

theorem contentLinesFrom_of_blank (h : Text.trim line = "") :
    contentLinesFrom number (.ok line :: lines) = contentLinesFrom (number + 1) lines := by
  simp [contentLinesFrom, h]

theorem contentLinesFrom_of_content (h : Text.trim line ≠ "") :
    contentLinesFrom number (.ok line :: lines) =
      ((number, Text.trim line) :: (contentLinesFrom (number + 1) lines).1,
        (contentLinesFrom (number + 1) lines).2) := by
  simp [contentLinesFrom, h]

end

/-- Lines of text are numbered, trimmed and kept if they are not blank; nothing ends them early. -/
theorem contentLinesFrom_text (number : Nat) (lines : List String) :
    (contentLinesFrom number (lines.map .ok)).2 = none ∧
      (contentLinesFrom number (lines.map .ok)).1.map (·.2) = (Text.contents lines).map Text.trim := by
  induction lines generalizing number with
  | nil => exact ⟨rfl, rfl⟩
  | cons line lines ih =>
    obtain ⟨hstop, hlines⟩ := ih (number + 1)
    rw [Text.contents] at hlines ⊢
    rw [List.map_cons]
    by_cases h : Text.trim line = ""
    · have hc : Text.hasContent line = false := Bool.eq_false_iff.2 fun hc => Text.trim_ne_empty_iff.2 hc h
      rw [contentLinesFrom_of_blank _ _ h, List.filter_cons_of_neg (by rw [hc]; exact Bool.false_ne_true)]
      exact ⟨hstop, hlines⟩
    · rw [contentLinesFrom_of_content _ _ h, List.filter_cons_of_pos (Text.trim_ne_empty_iff.1 h)]
      exact ⟨hstop, by rw [List.map_cons, List.map_cons, hlines]⟩

/-- Only what is left of the lines when they are trimmed counts. -/
theorem contentLinesFrom_congr {lines lines' : List Text.RawLine}
    (h : lines.map (Except.map Text.trim) = lines'.map (Except.map Text.trim)) (number : Nat) :
    contentLinesFrom number lines = contentLinesFrom number lines' := by
  induction lines generalizing lines' number with
  | nil =>
    cases lines' with
    | nil => rfl
    | cons => cases h
  | cons line lines ih =>
    cases lines' with
    | nil => cases h
    | cons line' lines' =>
      obtain ⟨hline, hlines⟩ := List.cons.inj h
      cases line with
      | error byte =>
        cases line' with
        | error byte' => cases hline; rfl
        | ok s' => cases hline
      | ok s =>
        cases line' with
        | error byte' => cases hline
        | ok s' =>
          have hs : Text.trim s = Text.trim s' := Except.ok.inj hline
          rw [contentLinesFrom, contentLinesFrom, ih hlines, hs]

/-- An empty line at the end adds nothing. -/
theorem contentLinesFrom_concat_empty (number : Nat) (lines : List Text.RawLine) :
    contentLinesFrom number (lines ++ [.ok ""]) = contentLinesFrom number lines := by
  induction lines generalizing number with
  | nil => rfl
  | cons line lines ih =>
    cases line with
    | error byte => rfl
    | ok s => rw [List.cons_append, contentLinesFrom, ih, contentLinesFrom]

namespace Builder

variable {b : Builder}

theorem ofLines_congr {lines lines' : List Text.RawLine} (h : contentLines lines = contentLines lines') :
    ofLines lines = ofLines lines' := by
  rw [ofLines, ofLines, h]

/-- The builder with the final states `ids` and the transitions `ts`, added in order. -/
def collected (ids : List Int) (ts : List Transition) : Builder :=
  ts.foldl put { empty with finals := ids }

theorem finals_collected (ids : List Int) (ts : List Transition) : (collected ids ts).finals = ids :=
  finals_foldl_put ts _

theorem spent_collected (ids : List Int) (ts : List Transition) : (collected ids ts).spent = false :=
  spent_foldl_put ts _

theorem holds_collected (ids : List Int) {ts : List Transition}
    (h : ∀ t ∈ ts, Text.isBlank t.symbol = false) :
    Holds (collected ids ts) (ts.foldl Rows.addTransition ∅) := by
  have hids : Holds { empty with finals := ids } ∅ := Holds.empty.congr rfl rfl
  exact hids.foldl_put h

section

variable {rows : Rows Int Char} {ids : List Int} {ts : List Transition} (h : Holds (collected ids ts) rows)
include h

theorem freeze_collected_eq_error_iff {f : Failure} :
    (collected ids ts).freeze.2 = .error (.invalid f) ↔
      failure? Automaton.initial rows ids rows.symbols = some f := by
  rw [h.freeze_eq_error_iff (spent_collected ids ts), finals_collected]
  simp

theorem exists_freeze_collected (hids : ids.Pairwise (· < ·))
    (hc : Complete Automaton.initial rows ids rows.symbols) :
    ∃ d, (collected ids ts).freeze.2 = .ok d ∧ d.rows = rows ∧ d.finals = ids := by
  have hspent := spent_collected ids ts
  have hfinals := finals_collected ids ts
  obtain ⟨d, hd⟩ := (h.exists_freeze_iff hspent).1 (by rw [hfinals]; exact failure?_eq_none_iff.2 hc)
  obtain ⟨-, hrows, hids'⟩ := (h.freeze_eq_ok_iff hspent).1 hd
  rw [hfinals, ascending_eq hids fun _ => Iff.rfl] at hids'
  exact ⟨d, hd, hrows, hids'⟩

end

theorem isBlank_of_reads {lines : List String} {ts : List Transition} (h : List.Forall₂ Line.Reads lines ts) :
    ∀ t ∈ ts, Text.isBlank t.symbol = false := by
  intro t ht
  obtain ⟨line, -, hline⟩ := exists_of_forall₂ h ht
  exact hline.isBlank

theorem addFinals_eq (ids : List Int) (h : b.spent = false) :
    b.addFinals ids = .ok { b with finals := b.finals ++ ids } := by
  induction ids generalizing b with
  | nil => rw [List.append_nil]; rfl
  | cons q ids ih =>
    show (b.addFinal (.int q) >>= fun b => b.addFinals ids) = _
    rw [addFinal_int h]
    refine (ih (b := { b with finals := b.finals ++ [q] }) h).trans ?_
    rw [List.append_assoc]; rfl

theorem addLine_eq_ok_iff {b' : Builder} {line : Nat × String} (h : b.spent = false) :
    b.addLine line = .ok b' ↔ ∃ t, Line.Reads line.2 t ∧ b' = b.put t := by
  rw [addLine, Except.bind_eq_ok_iff]
  simp only [Line.transition_eq_ok_iff]
  constructor
  · rintro ⟨t, ht, hb⟩
    rw [addTransition_typed h t ht.isBlank] at hb
    cases hb; exact ⟨t, ht, rfl⟩
  · rintro ⟨t, ht, rfl⟩
    exact ⟨t, ht, addTransition_typed h t ht.isBlank⟩

theorem foldlM_addLine_eq_ok_iff {b' : Builder} {rest : List (Nat × String)} (h : b.spent = false) :
    rest.foldlM addLine b = .ok b' ↔
      ∃ ts, List.Forall₂ (fun line t => Line.Reads line.2 t) rest ts ∧ b' = ts.foldl put b :=
  foldlM_eq_ok_iff (f := addLine) (g := put) (R := fun (line : Nat × String) t => Line.Reads line.2 t)
    (P := fun b => b.spent = false) (fun _ _ _ hb => addLine_eq_ok_iff hb) (fun _ _ hb => hb) h

/-- Reading succeeds if the first content line lists final states, every other one is a transition, and
no line is left that cannot be decoded. -/
theorem ofLines_eq_ok_iff {lines : List Text.RawLine} :
    ofLines lines = .ok b ↔
      ∃ header rest ids ts, contentLines lines = (header :: rest, none) ∧ Line.Lists header.2 ids ∧
        List.Forall₂ (fun line t => Line.Reads line.2 t) rest ts ∧ b = collected ids ts := by
  unfold ofLines
  split
  · next stop hc => simp [hc]
  · next header rest stop hc =>
    rw [hc]
    constructor
    · intro h
      obtain ⟨ids, hids, h⟩ := Except.bind_eq_ok_iff.1 h
      obtain ⟨b₀, hb₀, h⟩ := Except.bind_eq_ok_iff.1 h
      obtain ⟨b', hb', h⟩ := Except.bind_eq_ok_iff.1 h
      rw [addFinals_eq ids rfl] at hb₀
      cases hb₀
      obtain ⟨ts, hts, rfl⟩ := (foldlM_addLine_eq_ok_iff rfl).1 hb'
      cases stop with
      | some e => cases h
      | none =>
        cases h
        exact ⟨header, rest, ids, ts, rfl, Line.finalStates_eq_ok_iff.1 hids, hts, rfl⟩
    · rintro ⟨_, _, ids, ts, h, hids, hts, rfl⟩
      cases h
      rw [Line.finalStates_eq_ok_iff.2 hids]
      show (empty.addFinals ids >>= _) = _
      rw [addFinals_eq ids rfl]
      show (rest.foldlM addLine { empty with finals := ids } >>= _) = _
      rw [(foldlM_addLine_eq_ok_iff rfl).2 ⟨ts, hts, rfl⟩]; rfl

/-- What is read holds rows and can still be frozen. -/
theorem exists_holds_of_ofLines {lines : List Text.RawLine} (h : ofLines lines = .ok b) :
    b.spent = false ∧ ∃ rows, b.Holds rows := by
  obtain ⟨header, rest, ids, ts, -, -, hts, rfl⟩ := ofLines_eq_ok_iff.1 h
  refine ⟨spent_collected ids ts, _, holds_collected ids fun t ht => ?_⟩
  obtain ⟨line, -, hline⟩ := exists_of_forall₂ hts ht
  exact hline.isBlank

/-- Reading lines of text succeeds in the same way. -/
theorem ofLines_text_eq_ok_iff {lines : List String} :
    ofLines (lines.map .ok) = .ok b ↔
      ∃ header rest ids ts, Text.contents lines = header :: rest ∧ Line.Lists header ids ∧
        List.Forall₂ Line.Reads rest ts ∧ b = collected ids ts := by
  obtain ⟨hstop, hlines⟩ := contentLinesFrom_text 1 lines
  rw [ofLines_eq_ok_iff]
  have hread {rest : List (Nat × String)} {trimmed : List String} {ts : List Transition}
      (h : rest.map (·.2) = trimmed.map Text.trim) :
      List.Forall₂ (fun line t => Line.Reads line.2 t) rest ts ↔ List.Forall₂ Line.Reads trimmed ts := by
    rw [← List.forall₂_map_left_iff (f := fun line : Nat × String => line.2) (R := Line.Reads), h,
      List.forall₂_map_left_iff]
    simp only [Line.reads_trim]
  constructor
  · rintro ⟨header, rest, ids, ts, hc, hids, hts, rfl⟩
    change contentLinesFrom 1 (lines.map .ok) = _ at hc
    rw [hc] at hlines
    cases hcs : Text.contents lines with
    | nil => rw [hcs] at hlines; cases hlines
    | cons line trimmed =>
      rw [hcs, List.map_cons, List.map_cons, List.cons.injEq] at hlines
      refine ⟨line, trimmed, ids, ts, rfl, ?_, (hread hlines.2).1 hts, rfl⟩
      rw [hlines.1] at hids; exact Line.lists_trim.1 hids
  · rintro ⟨line, trimmed, ids, ts, hc, hids, hts, rfl⟩
    rw [hc] at hlines
    cases hcs : (contentLinesFrom 1 (lines.map .ok)).1 with
    | nil => rw [hcs] at hlines; cases hlines
    | cons header rest =>
      rw [hcs, List.map_cons, List.map_cons, List.cons.injEq] at hlines
      refine ⟨header, rest, ids, ts, Prod.ext hcs hstop, ?_, (hread hlines.2).2 hts, rfl⟩
      rw [hlines.1]; exact Line.lists_trim.2 hids

end Builder

end Acceptor
