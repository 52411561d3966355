import Acceptor.Proofs.Reading

/-!
# The layout of a description

Reading looks at the words of the lines, line by line, and passes over lines without words
(`Text.wordLines`). A step of it comes to the same on two lines with the same words, but for the line that an
error is about (`SameBarLine`), and this is kept from step to step (`SameBarLine.bind`). So descriptions with
the same words are read to the same builder or refused alike, however they are laid out
(`sameBarLine_ofSource_lines`).
-/

namespace Acceptor

namespace Text

/-- The words of each line, without the lines that have none. -/
def wordLines (lines : List String) : List (List String) := (lines.map words).filter (!·.isEmpty)

theorem wordLines_eq (lines : List String) : wordLines lines = (contents lines).map words := by
  have hcontent : (fun line => !(words line).isEmpty) = hasContent := by
    funext line
    rw [Bool.eq_iff_iff, hasContent_iff_words]; simp
  rw [wordLines, List.filter_map]
  exact congrArg (fun p => (lines.filter p).map words) hcontent

end Text

/-- The faults are the same, or they are errors of one kind about two lines: behind the numbers of the lines
their messages are the same. -/
inductive Fault.SameBarLine : Fault → Fault → Prop
  | same (fault : Fault) : SameBarLine fault fault
  | moved {e e' : ParseError} {n n' : Int} {wording : String} (kind : e.kind = e'.kind)
    (message : e.message = "line " ++ Numeral.toText n ++ ": " ++ wording)
    (message' : e'.message = "line " ++ Numeral.toText n' ++ ": " ++ wording) :
    SameBarLine (.parse e) (.parse e')

/-- The same result, or no result for faults that are the same bar the line. -/
inductive SameBarLine {α : Type} : Except Fault α → Except Fault α → Prop
  | ok (a : α) : SameBarLine (.ok a) (.ok a)
  | error {fault fault' : Fault} (h : fault.SameBarLine fault') : SameBarLine (.error fault) (.error fault')

namespace SameBarLine

variable {α β σ : Type}

theorem refl (x : Except Fault α) : SameBarLine x x := by
  cases x with
  | ok a => exact .ok a
  | error fault => exact .error (.same fault)

theorem bind {x x' : Except Fault α} {f f' : α → Except Fault β} (h : SameBarLine x x')
    (hf : ∀ a, SameBarLine (f a) (f' a)) : SameBarLine (x >>= f) (x' >>= f') := by
  cases h with
  | ok a => exact hf a
  | error h => exact .error h

theorem mapM {f f' : α → Except Fault β} (h : ∀ a, SameBarLine (f a) (f' a)) (l : List α) :
    SameBarLine (l.mapM f) (l.mapM f') := by
  induction l with
  | nil => exact .ok []
  | cons a l ih =>
    rw [List.mapM_cons, List.mapM_cons]
    exact (h a).bind fun b => ih.bind fun bs => .ok (b :: bs)

theorem foldlM {R : α → α → Prop} {f : σ → α → Except Fault σ}
    (hf : ∀ s a a', R a a' → SameBarLine (f s a) (f s a')) {l l' : List α} (h : List.Forall₂ R l l') (s : σ) :
    SameBarLine (l.foldlM f s) (l'.foldlM f s) := by
  induction h generalizing s with
  | nil => exact .ok s
  | cons ha _ ih =>
    rw [List.foldlM_cons, List.foldlM_cons]
    exact (hf s _ _ ha).bind ih

end SameBarLine

namespace Line

variable {line line' : String} (n n' : Int)

theorem sameBarLine_fail {α : Type} (line line' : String) (cause : ParseError.Cause) :
    SameBarLine (fail line (some n) cause : Except Fault α) (fail line' (some n') cause) :=
  .error (.moved rfl rfl rfl)

theorem sameBarLine_integer (line line' : String) (cause : String → ParseError.Cause) (token : String) :
    SameBarLine (integer line (some n) cause token) (integer line' (some n') cause token) := by
  unfold integer
  split
  · exact .ok _
  · exact sameBarLine_fail n n' line line' (cause token)
  · exact .refl _

theorem sameBarLine_symbol (line line' : String) (token : String) :
    SameBarLine (symbol line (some n) token) (symbol line' (some n') token) := by
  unfold symbol
  split
  · exact .ok _
  · exact sameBarLine_fail n n' line line' (.symbolTooLong token)

theorem sameBarLine_finalStates (h : Text.words line = Text.words line') :
    SameBarLine (finalStates line (some n)) (finalStates line' (some n')) := by
  rw [finalStates, finalStates, h]
  exact .mapM (sameBarLine_integer n n' line line' .finalNotInteger) _

theorem sameBarLine_transition (h : Text.words line = Text.words line') :
    SameBarLine (transition line (some n)) (transition line' (some n')) := by
  unfold transition
  rw [h]
  split
  · next source c target _ =>
    refine (sameBarLine_integer n n' line line' .sourceNotInteger source).bind fun q => ?_
    refine (sameBarLine_symbol n n' line line' c).bind fun c => ?_
    exact (sameBarLine_integer n n' line line' .targetNotInteger target).bind fun t => .ok _
  · exact sameBarLine_fail n n' line line' (.tokenCount (Text.words line').length)

end Line

/-- Of lines of text the content lines have the same words, and nothing ends them early. -/
theorem words_contentLines (lines : List String) :
    ∃ cs, contentLines (lines.map .ok) = (cs, none) ∧
      cs.map (fun c => Text.words c.2) = Text.wordLines lines := by
  obtain ⟨hstop, hlines⟩ := contentLinesFrom_text 1 lines
  refine ⟨(contentLines (lines.map .ok)).1, Prod.ext rfl hstop, ?_⟩
  calc (contentLines (lines.map .ok)).1.map (fun c => Text.words c.2)
      = ((contentLines (lines.map .ok)).1.map (·.2)).map Text.words := by rw [List.map_map]; rfl
    _ = ((Text.contents lines).map Text.trim).map Text.words := congrArg (List.map Text.words) hlines
    _ = (Text.contents lines).map Text.words := by simp [Text.words_trim]
    _ = Text.wordLines lines := (Text.wordLines_eq lines).symm

namespace Builder

theorem sameBarLine_addLine (b : Builder) {c c' : Nat × String} (h : Text.words c.2 = Text.words c'.2) :
    SameBarLine (b.addLine c) (b.addLine c') :=
  (Line.sameBarLine_transition c.1 c'.1 h).bind fun _ => .refl _

theorem sameBarLine_ofSource_lines {lines lines' : List String}
    (h : Text.wordLines lines = Text.wordLines lines') :
    SameBarLine (ofSource (.lines (lines.map .text))) (ofSource (.lines (lines'.map .text))) := by
  obtain ⟨cs, hcs, hwords⟩ := words_contentLines lines
  obtain ⟨cs', hcs', hwords'⟩ := words_contentLines lines'
  have hsame : List.Forall₂ (fun c c' : Nat × String => Text.words c.2 = Text.words c'.2) cs cs' := by
    have hmap : cs.map (fun c => Text.words c.2) = cs'.map fun c => Text.words c.2 := by
      rw [hwords, hwords', h]
    rwa [← List.forall₂_eq_eq_eq, List.forall₂_map_left_iff, List.forall₂_map_right_iff] at hmap
  have hread : ∀ lines : List String, ofSource (.lines (lines.map .text)) = ofLines (lines.map .ok) :=
    fun lines => by
      show ofLines ((lines.map Piece.text).map Piece.raw) = _
      rw [List.map_map]; rfl
  rw [hread, hread, ofLines, ofLines, hcs, hcs']
  cases hsame with
  | nil => exact .refl _
  | @cons header header' rest rest' hheader hrest =>
    refine (Line.sameBarLine_finalStates header.1 header'.1 hheader).bind fun ids => ?_
    refine (SameBarLine.refl (empty.addFinals ids)).bind fun b => ?_
    exact (SameBarLine.foldlM (fun b _ _ h => b.sameBarLine_addLine h) hrest b).bind fun b => .ok b

/-- Blank lines, carriage returns and wide spaces; the line with a fault is the second or the fifth. -/
theorem sameBarLine_ofSource_lines_spread :
    let lines := ["0 1", "0 a 1", "1 a 0"]
    let lines' := ["", "\t0\u00851\r", "\u2003", "0  a\u30001", " 1 a 0 \r"]
    let bad := ["0 1", "0 ab 1"]
    let bad' := ["", "\t0\u00851\r", "\u2003", "", "0  ab\u30001"]
    (∃ b, ofSource (.lines (lines.map .text)) = .ok b ∧ ofSource (.lines (lines'.map .text)) = .ok b) ∧
    ∃ e e' : ParseError, ofSource (.lines (bad.map .text)) = .error (.parse e) ∧
      ofSource (.lines (bad'.map .text)) = .error (.parse e') ∧ (Fault.parse e).SameBarLine (.parse e') ∧
      e.message = "line 2: symbol 'ab' is not a single character" ∧
      e'.message = "line 5: symbol 'ab' is not a single character" := by
  intro lines lines' bad bad'
  obtain ⟨b, hb⟩ : ∃ b, ofSource (.lines (lines.map .text)) = .ok b := ⟨_, rfl⟩
  obtain ⟨e, e', he, he', hm, hm'⟩ : ∃ e e' : ParseError,
      ofSource (.lines (bad.map .text)) = .error (.parse e) ∧
      ofSource (.lines (bad'.map .text)) = .error (.parse e') ∧
      e.message = "line 2: symbol 'ab' is not a single character" ∧
      e'.message = "line 5: symbol 'ab' is not a single character" :=
    ⟨_, _, rfl, rfl, by decide +kernel, by decide +kernel⟩
  have hlines : SameBarLine (ofSource (.lines (lines.map .text))) (ofSource (.lines (lines'.map .text))) :=
    sameBarLine_ofSource_lines (by decide)
  have hbad : SameBarLine (ofSource (.lines (bad.map .text))) (ofSource (.lines (bad'.map .text))) :=
    sameBarLine_ofSource_lines (by decide)
  rw [hb] at hlines
  rw [he, he'] at hbad
  cases hbad with
  | error h =>
    refine ⟨⟨b, hb, ?_⟩, e, e', he, he', h, hm, hm'⟩
    generalize ofSource (.lines (lines'.map .text)) = result at hlines
    cases hlines; rfl

end Builder

end Acceptor
