import Acceptor.Proofs.Source

/-!
# The replies in a text

A text that is typed is taken apart in one way: into lines, each with an end of one of three kinds, and
perhaps characters behind the last end (`Typed`). The replies are these lines (`typed_iff`), so no character of
the input is lost or belongs to two of them.
-/

namespace Acceptor.Text

/-- No line ends inside the text. -/
def Unbroken (s : List Char) : Prop := '\n' ∉ s ∧ '\r' ∉ s

/-- What ends a line in front of `rest`. A carriage return before a line feed is half of an end. -/
inductive EndsLine : List Char → List Char → Prop
  | lineFeed (rest : List Char) : EndsLine ['\n'] rest
  | both (rest : List Char) : EndsLine ['\r', '\n'] rest
  | carriageReturn {rest : List Char} (h : rest.head? ≠ some '\n') : EndsLine ['\r'] rest

/-- The text is made of these lines; the last one may lack its end unless it is empty. -/
inductive Typed : List Char → List (List Char) → Prop
  | nothing : Typed [] []
  | unfinished {line : List Char} (hne : line ≠ []) (h : Unbroken line) : Typed line [line]
  | line {line stop rest : List Char} {lines : List (List Char)} (h : Unbroken line) (hstop : EndsLine stop rest)
    (hrest : Typed rest lines) : Typed (line ++ stop ++ rest) (line :: lines)

variable {line stop rest s : List Char}

theorem unifyLineEnds_append (h : '\r' ∉ line) (s : List Char) :
    unifyLineEnds (line ++ s) = line ++ unifyLineEnds s := by
  induction line with
  | nil => rfl
  | cons c line ih =>
    rw [List.mem_cons, not_or] at h
    rw [List.cons_append, unifyLineEnds, ih h.2, List.cons_append]
    · rintro t rfl; exact absurd rfl h.1
    · rintro rfl; exact absurd rfl h.1

theorem EndsLine.unifyLineEnds_append (h : EndsLine stop rest) :
    unifyLineEnds (stop ++ rest) = '\n' :: unifyLineEnds rest := by
  cases h with
  | lineFeed => rfl
  | both => rfl
  | carriageReturn h =>
    cases rest with
    | nil => rfl
    | cons =>
      rw [List.singleton_append, unifyLineEnds]
      rintro t ⟨⟩; exact h rfl

theorem textLines_of_notMem (h : '\n' ∉ line) : textLines line = [line] :=
  List.splitOnP_eq_singleton fun _ hc => beq_eq_false_iff_ne.2 fun heq => h (heq ▸ hc)

theorem textLines_append_cons (h : '\n' ∉ line) (s : List Char) :
    textLines (line ++ '\n' :: s) = line :: textLines s := by
  have hline := textLines_of_notMem h
  rw [textLines] at hline ⊢
  rw [List.splitOnP_append_cons line s (by decide), hline]; rfl

/-- The pieces without an empty one at the end. -/
def finished (pieces : List (List Char)) : List (List Char) :=
  if pieces.getLast? = some [] then pieces.dropLast else pieces

theorem finished_cons {pieces : List (List Char)} (h : pieces ≠ []) (line : List Char) :
    finished (line :: pieces) = line :: finished pieces := by
  have hlast : (line :: pieces).getLast? = pieces.getLast? := by
    rw [List.getLast?_cons, List.getLast?_eq_some_getLast h]; rfl
  rw [finished, finished, hlast, List.dropLast_cons_of_ne_nil h]
  split <;> rfl

/-- The characters up to the first end of a line, and that end. -/
theorem exists_line (s : List Char) :
    Unbroken s ∨ ∃ line stop rest, s = line ++ stop ++ rest ∧ Unbroken line ∧ EndsLine stop rest := by
  induction s with
  | nil => exact .inl ⟨List.not_mem_nil, List.not_mem_nil⟩
  | cons c s ih =>
    have hempty : Unbroken [] := ⟨List.not_mem_nil, List.not_mem_nil⟩
    by_cases hfeed : c = '\n'
    · exact .inr ⟨[], ['\n'], s, by rw [hfeed]; rfl, hempty, .lineFeed s⟩
    by_cases hreturn : c = '\r'
    · subst hreturn
      by_cases hhead : s.head? = some '\n'
      · obtain ⟨rest, rfl⟩ := List.head?_eq_some_iff.1 hhead
        exact .inr ⟨[], ['\r', '\n'], rest, rfl, hempty, .both rest⟩
      · exact .inr ⟨[], ['\r'], s, rfl, hempty, .carriageReturn hhead⟩
    have hcons {line : List Char} (h : Unbroken line) : Unbroken (c :: line) :=
      ⟨by simp [Ne.symm hfeed, h.1], by simp [Ne.symm hreturn, h.2]⟩
    rcases ih with h | ⟨line, stop, rest, rfl, h, hstop⟩
    · exact .inl (hcons h)
    · exact .inr ⟨c :: line, stop, rest, rfl, hcons h, hstop⟩

theorem finished_of_line (h : Unbroken line) (hstop : EndsLine stop rest) :
    finished (textLines (unifyLineEnds (line ++ stop ++ rest))) =
      line :: finished (textLines (unifyLineEnds rest)) := by
  have hne : textLines (unifyLineEnds rest) ≠ [] := List.splitOnP_ne_nil _ _
  rw [List.append_assoc, unifyLineEnds_append h.2, hstop.unifyLineEnds_append, textLines_append_cons h.1,
    finished_cons hne]

theorem finished_of_unbroken (hne : line ≠ []) (h : Unbroken line) :
    finished (textLines (unifyLineEnds line)) = [line] := by
  rw [unifyLineEnds_of_notMem h.2, textLines_of_notMem h.1]
  exact if_neg fun hlast => hne (by simpa using hlast)

theorem typed_finished (s : List Char) : Typed s (finished (textLines (unifyLineEnds s))) := by
  -- on the number of characters: the first line takes at least the one that ends it
  induction hlen : s.length using Nat.strongRecOn generalizing s with
  | ind len ih =>
    rcases exists_line s with h | ⟨line, stop, rest, rfl, h, hstop⟩
    · by_cases hne : s = []
      · rw [hne]; exact .nothing
      · rw [finished_of_unbroken hne h]; exact .unfinished hne h
    · have hpos : 0 < stop.length := by cases hstop <;> simp
      have hlt : rest.length < len := by
        rw [← hlen, List.length_append, List.length_append]; omega
      rw [finished_of_line h hstop]
      exact .line h hstop (ih rest.length hlt rest rfl)

theorem Typed.eq_finished {lines : List (List Char)} (h : Typed s lines) :
    lines = finished (textLines (unifyLineEnds s)) := by
  induction h with
  | nothing => rfl
  | unfinished hne h => rw [finished_of_unbroken hne h]
  | line h hstop _ ih => rw [finished_of_line h hstop, ih]

theorem typed_iff {s : String} {lines : List String} :
    Typed s.toList (lines.map String.toList) ↔ replies s = lines := by
  have hlines : (replies s).map String.toList = finished (textLines (unifyLineEnds s.toList)) := by
    rw [replies, List.map_map]
    simp [Function.comp_def, finished]
  constructor
  · intro h
    have heq := h.eq_finished
    rw [← hlines] at heq
    exact (List.map_injective_iff.2 (fun _ _ => String.toList_inj.1) heq).symm
  · rintro rfl
    rw [hlines]; exact typed_finished s.toList

end Acceptor.Text
