import Acceptor.Proofs.LineFault
import Acceptor.Proofs.Reading
import Acceptor.Proofs.Source
import Mathlib.Data.List.Induction

/-!
# Reading stops at the first bad line

A `Reader` decodes, trims and reads one line at a time. Reading all lines and then building is the same as
letting a reader run over them (`ofLines_eq_foldlM`), so what stands behind a line cannot matter. A line is
bad (`BadLine`) if it is no text, or if it has the wrong form for its place: final states are listed by the
first line that is not blank. The reader stops at the first bad line with the fault of that line
(`OwnFault`), and goes to the end if there is none (`ofSource_lines_first_bad`).
-/

namespace Acceptor

/-- A text, or the bytes of a text, without a character that is not blank. -/
def Piece.Blank (p : Piece) : Prop := ∃ s, p.Holds s ∧ Text.hasContent s = false

/-- The line cannot be read behind these lines. -/
inductive BadLine (before : List Piece) (p : Piece) : Prop
  | undecodable (h : ∀ s, ¬ p.Holds s) : BadLine before p
  | finals {s : String} (hs : p.Holds s) (hc : Text.hasContent s = true) (hbefore : ∀ q ∈ before, q.Blank)
    (h : ∀ ids, ¬ Line.Lists s ids) : BadLine before p
  | transition {s : String} (hs : p.Holds s) (hc : Text.hasContent s = true)
    (hbefore : ∃ q ∈ before, ¬ q.Blank) (h : ∀ t, ¬ Line.Reads s t) : BadLine before p

/-- The fault of the line itself, with its place behind these lines. -/
inductive OwnFault (before : List Piece) (p : Piece) : Fault → Prop
  | undecodable {byte : UInt8} (h : p.raw = .error byte) :
    OwnFault before p (.parse ⟨.undecodable byte, some (before.length + 1 : Nat), none⟩)
  | finals {s : String} {fault : Fault} (hs : p.Holds s) (hc : Text.hasContent s = true)
    (hbefore : ∀ q ∈ before, q.Blank)
    (h : Line.FinalsFault (Text.trim s) (some (before.length + 1 : Nat)) fault) : OwnFault before p fault
  | transition {s : String} {fault : Fault} (hs : p.Holds s) (hc : Text.hasContent s = true)
    (hbefore : ∃ q ∈ before, ¬ q.Blank)
    (h : Line.TransitionFault (Text.trim s) (some (before.length + 1 : Nat)) fault) : OwnFault before p fault

def NoneBad (pieces : List Piece) : Prop :=
  ∀ before p after, pieces = before ++ p :: after → ¬ BadLine before p

variable {p : Piece} {s t : String} {before pieces : List Piece} {fault : Fault}

theorem Piece.Holds.blank_iff (hs : p.Holds s) : p.Blank ↔ Text.hasContent s = false := by
  constructor
  · rintro ⟨t, ht, hc⟩; rw [hs.unique ht]; exact hc
  · intro hc; exact ⟨s, hs, hc⟩

theorem BadLine.not_blank (h : BadLine before p) : ¬ p.Blank := by
  rintro ⟨t, ht, hblank⟩
  cases h with
  | undecodable h => exact h t ht
  | finals hs hc => rw [hs.unique ht, hblank] at hc; cases hc
  | transition hs hc => rw [hs.unique ht, hblank] at hc; cases hc

theorem not_badLine_of_lists {ids : List Int} (hs : p.Holds s) (hbefore : ∀ q ∈ before, q.Blank)
    (hids : Line.Lists s ids) : ¬ BadLine before p := by
  intro hbad
  cases hbad with
  | undecodable h => exact h s hs
  | finals ht _ _ h => rw [← hs.unique ht] at h; exact h ids hids
  | transition _ _ hcontent =>
    obtain ⟨q, hq, hc⟩ := hcontent
    exact hc (hbefore q hq)

theorem not_badLine_of_reads {u : Transition} (hs : p.Holds s) (hbefore : ∃ q ∈ before, ¬ q.Blank)
    (hu : Line.Reads s u) : ¬ BadLine before p := by
  obtain ⟨q, hq, hc⟩ := hbefore
  intro hbad
  cases hbad with
  | undecodable h => exact h s hs
  | finals _ _ hblank => exact hc (hblank q hq)
  | transition ht _ _ h => rw [← hs.unique ht] at h; exact h u hu

theorem noneBad_concat_iff : NoneBad (before ++ [p]) ↔ NoneBad before ∧ ¬ BadLine before p := by
  constructor
  · intro h
    refine ⟨fun l q r hl => h l q (r ++ [p]) ?_, h before p [] rfl⟩
    rw [hl, List.append_assoc]; rfl
  · rintro ⟨hbefore, hp⟩ l q r hl
    rcases List.eq_nil_or_concat r with rfl | ⟨r, p', rfl⟩
    · obtain ⟨rfl, h⟩ := List.append_inj' hl rfl
      cases h; exact hp
    · rw [List.concat_eq_append, ← List.cons_append, ← List.append_assoc] at hl
      exact hbefore l q r (List.append_inj' hl rfl).1

theorem OwnFault.badLine (h : OwnFault before p fault) : BadLine before p := by
  cases h with
  | undecodable h =>
    refine .undecodable fun s hs => ?_
    rw [Piece.raw_eq_ok_iff.2 hs] at h; cases h
  | finals hs hc hbefore h =>
    refine .finals hs hc hbefore fun ids hids => ?_
    have herror := Line.finalStates_eq_error_iff.2 h
    rw [Line.finalStates_eq_ok_iff.2 (Line.lists_trim.2 hids)] at herror; cases herror
  | transition hs hc hbefore h =>
    refine .transition hs hc hbefore fun t ht => ?_
    have herror := Line.transition_eq_error_iff.2 h
    rw [Line.transition_eq_ok_iff.2 (Line.reads_trim.2 ht)] at herror; cases herror

theorem OwnFault.placed (h : OwnFault before p fault) :
    Line.Placed (p.raw.map Text.trim).toOption (before.length + 1 : Nat) fault := by
  cases h with
  | undecodable h => rw [h]; exact .inl ⟨_, rfl, rfl, rfl⟩
  | finals hs _ _ h => rw [Piece.raw_eq_ok_iff.2 hs]; exact h.placed
  | transition hs _ _ h => rw [Piece.raw_eq_ok_iff.2 hs]; exact h.placed

theorem OwnFault.exists_token {digits : Nat} (h : OwnFault before p (.numeralTooLong digits)) :
    ∃ s, p.Holds s ∧ ∃ token ∈ Text.words s, Numeral.Refused token.toList (.tooLong digits) := by
  cases h with
  | finals hs _ _ h => exact ⟨_, hs, by rw [← Text.words_trim]; exact h.exists_token⟩
  | transition hs _ _ h => exact ⟨_, hs, by rw [← Text.words_trim]; exact h.exists_token⟩

namespace Builder

variable {b : Builder}

/-- The number of the next line, and what was read if there was a line that is not blank. -/
structure Reader where
  number : Nat
  builder : Option Builder

namespace Reader

variable {r : Reader}

def start : Reader := ⟨1, none⟩

def readContent (r : Reader) (content : String) : Except Fault Builder :=
  match r.builder with
  | none => do
    let ids ← Line.finalStates content (some r.number)
    empty.addFinals ids
  | some b => b.addLine (r.number, content)

def readLine (r : Reader) : Text.RawLine → Except Fault Reader
  | .error byte => .error (.parse ⟨.undecodable byte, some r.number, none⟩)
  | .ok s =>
    if Text.trim s = "" then .ok ⟨r.number + 1, r.builder⟩
    else do
      let b ← r.readContent (Text.trim s)
      return ⟨r.number + 1, some b⟩

def finish (r : Reader) : Except Fault Builder :=
  match r.builder with
  | none => .error (.parse ⟨.noContent, none, none⟩)
  | some b => .ok b

theorem readLine_of_blank (h : Text.trim s = "") : r.readLine (.ok s) = .ok ⟨r.number + 1, r.builder⟩ :=
  if_pos h

theorem readLine_of_none (hb : r.builder = none) (h : Text.trim s ≠ "") :
    r.readLine (.ok s) = (Line.finalStates (Text.trim s) (some r.number)).map fun ids =>
      ⟨r.number + 1, some { empty with finals := ids }⟩ := by
  rw [readLine, if_neg h, readContent, hb]
  show ((Line.finalStates (Text.trim s) (some r.number) >>= empty.addFinals) >>= _) = _
  cases Line.finalStates (Text.trim s) (some r.number) with
  | error fault => rfl
  | ok ids =>
    show (empty.addFinals ids >>= _) = _
    rw [addFinals_eq ids rfl]; rfl

theorem readLine_of_some (hb : r.builder = some b) (hspent : b.spent = false) (h : Text.trim s ≠ "") :
    r.readLine (.ok s) = (Line.transition (Text.trim s) (some r.number)).map fun u =>
      ⟨r.number + 1, some (b.put u)⟩ := by
  rw [readLine, if_neg h, readContent, hb]
  show (b.addLine (r.number, Text.trim s) >>= _) = _
  rw [addLine]
  cases hu : Line.transition (Text.trim s) (some r.number) with
  | error fault => rfl
  | ok u =>
    show (b.addTransition (.int u.source) (.char u.symbol) (.int u.target) >>= _) = _
    rw [addTransition_typed hspent u (Line.transition_eq_ok_iff.1 hu).isBlank]; rfl

/-- The reader behind these lines. -/
structure After (before : List Piece) (r : Reader) : Prop where
  number : r.number = before.length + 1
  builder : r.builder = none ↔ ∀ q ∈ before, q.Blank
  unspent : ∀ b, r.builder = some b → b.spent = false

namespace After

theorem start : After [] start where
  number := rfl
  builder := iff_of_true rfl fun _ hq => absurd hq List.not_mem_nil
  unspent _ h := by cases h

theorem exists_not_blank (h : After before r) (hb : r.builder = some b) : ∃ q ∈ before, ¬ q.Blank := by
  by_contra hblank
  simp only [not_exists, not_and, not_not] at hblank
  rw [h.builder.2 hblank] at hb; cases hb

theorem blank (h : After before r) (hp : p.Blank) : After (before ++ [p]) ⟨r.number + 1, r.builder⟩ where
  number := by rw [h.number, List.length_append]; rfl
  builder := by
    rw [h.builder]
    simp only [List.forall_mem_append, List.forall_mem_singleton, hp, and_true]
  unspent := h.unspent

theorem content (h : After before r) (hp : ¬ p.Blank) (hb : b.spent = false) :
    After (before ++ [p]) ⟨r.number + 1, some b⟩ where
  number := by rw [h.number, List.length_append]; rfl
  builder := iff_of_false (fun h => by cases h) fun h => hp (h p (by simp))
  unspent b' h := by cases h; exact hb

/-- The next line is read, or it is bad and the reader stops with its fault. -/
theorem step (h : After before r) (p : Piece) :
    (∃ r', r.readLine p.raw = .ok r' ∧ After (before ++ [p]) r' ∧ ¬ BadLine before p) ∨
      ∃ fault, r.readLine p.raw = .error fault ∧ OwnFault before p fault := by
  cases hraw : p.raw with
  | error byte =>
    refine .inr ⟨_, rfl, ?_⟩
    rw [h.number]; exact .undecodable hraw
  | ok s =>
    have hs := Piece.raw_eq_ok_iff.1 hraw
    by_cases htrim : Text.trim s = ""
    · have hc : Text.hasContent s = false := Bool.eq_false_iff.2 fun hc => Text.trim_ne_empty_iff.2 hc htrim
      have hblank := hs.blank_iff.2 hc
      exact .inl ⟨_, readLine_of_blank htrim, h.blank hblank, fun hbad => hbad.not_blank hblank⟩
    have hc := Text.trim_ne_empty_iff.1 htrim
    have hcontent : ¬ p.Blank := fun hblank => by rw [hs.blank_iff.1 hblank] at hc; cases hc
    cases hb : r.builder with
    | none =>
      have hbefore := h.builder.1 hb
      rw [readLine_of_none hb htrim, h.number]
      cases hids : Line.finalStates (Text.trim s) (some (before.length + 1 : Nat)) with
      | error fault => exact .inr ⟨fault, rfl, .finals hs hc hbefore (Line.finalStates_eq_error_iff.1 hids)⟩
      | ok ids =>
        have hlists := Line.lists_trim.1 (Line.finalStates_eq_ok_iff.1 hids)
        refine .inl ⟨_, rfl, ?_, not_badLine_of_lists hs hbefore hlists⟩
        rw [← h.number]; exact h.content hcontent rfl
    | some b =>
      have hbefore := h.exists_not_blank hb
      have hspent := h.unspent b hb
      rw [readLine_of_some hb hspent htrim, h.number]
      cases hu : Line.transition (Text.trim s) (some (before.length + 1 : Nat)) with
      | error fault =>
        exact .inr ⟨fault, rfl, .transition hs hc hbefore (Line.transition_eq_error_iff.1 hu)⟩
      | ok u =>
        have hreads := Line.reads_trim.1 (Line.transition_eq_ok_iff.1 hu)
        refine .inl ⟨_, rfl, ?_, not_badLine_of_reads hs hbefore hreads⟩
        rw [← h.number]; exact h.content hcontent hspent

end After

theorem foldlM_concat (lines : List Piece) (p : Piece) :
    ((lines ++ [p]).map Piece.raw).foldlM readLine start =
      (lines.map Piece.raw).foldlM readLine start >>= fun r => r.readLine p.raw := by
  rw [List.map_append, List.foldlM_append]
  refine congrArg _ (funext fun r => ?_)
  exact bind_pure _

/-- A reader that gets to the end has met no bad line. -/
theorem foldlM_eq_ok (h : (pieces.map Piece.raw).foldlM readLine start = .ok r) :
    After pieces r ∧ NoneBad pieces := by
  induction pieces using List.reverseRecOn generalizing r with
  | nil =>
    cases h
    exact ⟨.start, fun l q r hl => by simp at hl⟩
  | append_singleton pieces p ih =>
    rw [foldlM_concat] at h
    obtain ⟨r₀, hr₀, hline⟩ := Except.bind_eq_ok_iff.1 h
    obtain ⟨hafter, hpieces⟩ := ih hr₀
    rcases hafter.step p with ⟨r', hr', hnext, hp⟩ | ⟨fault, hfault, -⟩
    · rw [hr'] at hline; cases hline
      exact ⟨hnext, noneBad_concat_iff.2 ⟨hpieces, hp⟩⟩
    · rw [hfault] at hline; cases hline

/-- A reader that stops on the way has the fault of a line. -/
theorem foldlM_eq_error (h : (pieces.map Piece.raw).foldlM readLine start = .error fault) :
    ∃ before p after, pieces = before ++ p :: after ∧ OwnFault before p fault := by
  induction pieces using List.reverseRecOn with
  | nil => cases h
  | append_singleton pieces p ih =>
    rw [foldlM_concat] at h
    rcases Except.bind_eq_error_iff.1 h with h | ⟨r, hr, hline⟩
    · obtain ⟨before, q, after, rfl, hown⟩ := ih h
      exact ⟨before, q, after ++ [p], by simp, hown⟩
    · rcases (foldlM_eq_ok hr).1.step p with ⟨r', hr', -, -⟩ | ⟨fault', hfault, hown⟩
      · rw [hr'] at hline; cases hline
      · rw [hfault] at hline; cases hline
        exact ⟨pieces, p, [], rfl, hown⟩

theorem exists_foldlM (h : NoneBad pieces) :
    ∃ r, (pieces.map Piece.raw).foldlM readLine start = .ok r ∧ After pieces r := by
  induction pieces using List.reverseRecOn with
  | nil => exact ⟨start, rfl, .start⟩
  | append_singleton pieces p ih =>
    obtain ⟨hpieces, hp⟩ := noneBad_concat_iff.1 h
    obtain ⟨r, hr, hafter⟩ := ih hpieces
    rcases hafter.step p with ⟨r', hr', hnext, -⟩ | ⟨fault, -, hown⟩
    · refine ⟨r', ?_, hnext⟩
      rw [foldlM_concat, hr]; exact hr'
    · exact absurd hown.badLine hp

theorem foldlM_eq_of_some (lines : List Text.RawLine) (number : Nat) (b : Builder) :
    (lines.foldlM readLine ⟨number, some b⟩ >>= finish) =
      (contentLinesFrom number lines).1.foldlM addLine b >>= fun b =>
        match (contentLinesFrom number lines).2 with
        | some e => .error (.parse e)
        | none => .ok b := by
  induction lines generalizing number b with
  | nil => rfl
  | cons line lines ih =>
    cases line with
    | error byte => rfl
    | ok s =>
      by_cases htrim : Text.trim s = ""
      · rw [List.foldlM_cons, readLine_of_blank htrim, contentLinesFrom_of_blank _ _ htrim]
        exact ih (number + 1) b
      · have hline : readLine ⟨number, some b⟩ (.ok s) =
            (b.addLine (number, Text.trim s) >>= fun b => .ok ⟨number + 1, some b⟩) := if_neg htrim
        rw [List.foldlM_cons, hline, contentLinesFrom_of_content _ _ htrim, List.foldlM_cons]
        cases b.addLine (number, Text.trim s) with
        | error fault => rfl
        | ok b => exact ih (number + 1) b

theorem foldlM_eq_of_none (lines : List Text.RawLine) (number : Nat) :
    (lines.foldlM readLine ⟨number, none⟩ >>= finish) =
      match contentLinesFrom number lines with
      | ([], stop) => .error (.parse (stop.getD ⟨.noContent, none, none⟩))
      | (header :: transitions, stop) => do
        let ids ← Line.finalStates header.2 (some header.1)
        let b ← empty.addFinals ids
        let b ← transitions.foldlM addLine b
        match stop with
        | some e => .error (.parse e)
        | none => return b := by
  induction lines generalizing number with
  | nil => rfl
  | cons line lines ih =>
    cases line with
    | error byte => rfl
    | ok s =>
      by_cases htrim : Text.trim s = ""
      · rw [List.foldlM_cons, readLine_of_blank htrim, contentLinesFrom_of_blank _ _ htrim]
        exact ih (number + 1)
      · rw [List.foldlM_cons, readLine_of_none rfl htrim, contentLinesFrom_of_content _ _ htrim]
        show _ = Line.finalStates (Text.trim s) (some number) >>= _
        cases Line.finalStates (Text.trim s) (some number) with
        | error fault => rfl
        | ok ids =>
          show _ = empty.addFinals ids >>= _
          rw [addFinals_eq ids rfl]
          exact foldlM_eq_of_some lines (number + 1) _

end Reader

theorem ofLines_eq_foldlM (lines : List Text.RawLine) :
    ofLines lines = lines.foldlM Reader.readLine Reader.start >>= Reader.finish :=
  (Reader.foldlM_eq_of_none lines 1).symm

/-- Reading fails for want of content or with the fault of a line. -/
theorem ofLines_raw_eq_error (h : ofLines (pieces.map Piece.raw) = .error fault) :
    fault = .parse ⟨.noContent, none, none⟩ ∨
      ∃ before p after, pieces = before ++ p :: after ∧ OwnFault before p fault := by
  rw [ofLines_eq_foldlM] at h
  rcases Except.bind_eq_error_iff.1 h with h | ⟨r, -, h⟩
  · exact .inr (Reader.foldlM_eq_error h)
  · refine .inl ?_
    unfold Reader.finish at h
    split at h
    · cases h; rfl
    · cases h

/-- Reading ends with the fault of the first bad line, whatever follows it; without a bad line it finds no
content or succeeds. -/
theorem ofSource_lines_first_bad (pieces : List Piece) :
    (∀ before p after, pieces = before ++ p :: after → NoneBad before → BadLine before p →
      ∃ fault, OwnFault before p fault ∧
        Line.Placed (p.raw.map Text.trim).toOption (before.length + 1 : Nat) fault ∧
        ∀ others, ofSource (.lines (before ++ p :: others)) = .error fault) ∧
    (NoneBad pieces →
      (ofSource (.lines pieces) = .error (.parse ⟨.noContent, none, none⟩) ↔ ∀ p ∈ pieces, p.Blank) ∧
      ((∃ p ∈ pieces, ¬ p.Blank) → ∃ b, ofSource (.lines pieces) = .ok b)) := by
  have hread : ∀ pieces, ofSource (.lines pieces) =
      (pieces.map Piece.raw).foldlM Reader.readLine Reader.start >>= Reader.finish :=
    fun pieces => ofLines_eq_foldlM _
  constructor
  · rintro before p after - hbefore hbad
    obtain ⟨r, hr, hafter⟩ := Reader.exists_foldlM hbefore
    rcases hafter.step p with ⟨r', -, -, hp⟩ | ⟨fault, hfault, hown⟩
    · exact absurd hbad hp
    · refine ⟨fault, hown, hown.placed, fun others => ?_⟩
      rw [hread, List.map_append, List.foldlM_append, hr, List.map_cons]
      show (r.readLine p.raw >>= _) >>= _ = _
      rw [hfault]; rfl
  · intro hnone
    obtain ⟨r, hr, hafter⟩ := Reader.exists_foldlM hnone
    have hfinish : ofSource (.lines pieces) = r.finish := by rw [hread, hr]; rfl
    rw [hfinish, Reader.finish]
    cases hbuilder : r.builder with
    | none =>
      have hblank := hafter.builder.1 hbuilder
      exact ⟨iff_of_true rfl hblank, fun ⟨p, hp, hc⟩ => absurd (hblank p hp) hc⟩
    | some b =>
      obtain ⟨p, hp, hc⟩ := hafter.exists_not_blank hbuilder
      exact ⟨iff_of_false (fun h => by cases h) fun h => hc (h p hp), fun _ => ⟨b, rfl⟩⟩

/-- The fourth line is the third one that has content, and too short for a transition. -/
theorem ofSource_lines_first_bad_fourth :
    NoneBad [.bytes [0x2B, 0x31], .text "\n", .text "0 é 1\n"] ∧
    BadLine [.bytes [0x2B, 0x31], .text "\n", .text "0 é 1\n"] (.text " 1 é\n") ∧
    (∀ others, ofSource (.lines ([.bytes [0x2B, 0x31], .text "\n", .text "0 é 1\n"] ++
      .text " 1 é\n" :: others)) = .error (.parse ⟨.tokenCount 2, some 4, some "1 é"⟩)) ∧
    ∃ b, ofSource (.lines [.bytes [0x2B, 0x31], .text "\n", .text "0 é 1\n"]) = .ok b := by
  let before : List Piece := [.bytes [0x2B, 0x31], .text "\n", .text "0 é 1\n"]
  obtain ⟨r, hr⟩ : ∃ r, (before.map Piece.raw).foldlM Reader.readLine Reader.start = .ok r := ⟨_, rfl⟩
  obtain ⟨hafter, hnone⟩ := Reader.foldlM_eq_ok hr
  have hcontent : ∃ q ∈ before, ¬ q.Blank := by
    refine ⟨.text "0 é 1\n", by simp [before], ?_⟩
    rw [(Piece.Holds.text _).blank_iff]; decide
  have hbad : BadLine before (.text " 1 é\n") := by
    refine .transition (.text _) (by decide) hcontent fun t ht => ?_
    obtain ⟨source, target, hw, -⟩ := ht
    have hlen : (Text.words " 1 é\n").length = 2 := by decide
    rw [hw] at hlen; cases hlen
  obtain ⟨hfirst, hgood⟩ := ofSource_lines_first_bad (before ++ [.text " 1 é\n"])
  obtain ⟨fault, -, -, hfault⟩ := hfirst before _ [] rfl hnone hbad
  have heq : fault = .parse ⟨.tokenCount 2, some 4, some "1 é"⟩ := by
    have h := hfault []
    have h' : ofSource (.lines (before ++ [.text " 1 é\n"])) =
        .error (.parse ⟨.tokenCount 2, some 4, some "1 é"⟩) := rfl
    rw [h'] at h; cases h; rfl
  rw [heq] at hfault
  exact ⟨hnone, hbad, hfault, ((ofSource_lines_first_bad before).2 hnone).2 hcontent⟩

end Builder

end Acceptor
