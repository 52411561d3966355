import Acceptor.Description.Format
import Acceptor.Proofs.Numeral
import Acceptor.Proofs.Success
import Acceptor.Proofs.Words

/-!
# What a line means

`Line.Means line t`: the words of the line are two numerals with a single character between them, and
`t` is the transition that they name. Reading a line gives its meaning, wherever the line stands
(`transition_eq_ok_iff`, `Reads.means`), and the line that is written for an edge means that edge
(`means_formatEdge`).
-/

namespace Acceptor

namespace Line

/-- The line is a source, a symbol and a target. -/
def Means (line : String) (t : Transition) : Prop :=
  ∃ source target, Text.words line = [source, String.singleton t.symbol, target] ∧
    Numeral.Denotes source.toList t.source ∧ Numeral.Denotes target.toList t.target

/-- The line is a source, a symbol and a target, with numerals that are not too long. -/
def Reads (line : String) (t : Transition) : Prop :=
  ∃ source target, Text.words line = [source, String.singleton t.symbol, target] ∧
    Numeral.read source = .ok t.source ∧ Numeral.read target = .ok t.target

/-- The line lists these integers, with numerals that are not too long. -/
def Lists (line : String) (ids : List Int) : Prop :=
  List.Forall₂ (fun token q => Numeral.read token = .ok q) (Text.words line) ids

variable {line : String} {number : Option Int}

theorem Reads.means {t : Transition} (h : Reads line t) : Means line t := by
  obtain ⟨source, target, hw, hs, ht⟩ := h
  exact ⟨source, target, hw, (Numeral.read_eq_ok_iff.1 hs).1, (Numeral.read_eq_ok_iff.1 ht).1⟩

theorem Reads.short_source {t : Transition} (h : Reads line t) : Numeral.Short t.source := by
  obtain ⟨source, target, -, hsource, -⟩ := h
  exact Numeral.short_of_read hsource

theorem Lists.denotes {ids : List Int} (h : Lists line ids) :
    List.Forall₂ (fun token q => Numeral.Denotes token.toList q) (Text.words line) ids :=
  h.imp fun _ _ hq => (Numeral.read_eq_ok_iff.1 hq).1

theorem integer_eq_ok_iff {cause : String → ParseError.Cause} {token : String} {q : Int} :
    integer line number cause token = .ok q ↔ Numeral.read token = .ok q := by
  unfold integer
  cases Numeral.read token with
  | ok n => simp
  | error r => cases r <;> simp [fail]

theorem symbol_eq_ok_iff {token : String} {c : Char} :
    symbol line number token = .ok c ↔ token = String.singleton c := by
  rw [← String.toList_inj, String.toList_singleton]
  unfold symbol
  split
  · next b hb => simp [hb]
  · next hb =>
    constructor
    · intro h; cases h
    · intro h; exact absurd h (hb c)

theorem finalStates_eq_ok_iff {ids : List Int} : finalStates line number = .ok ids ↔ Lists line ids := by
  rw [finalStates, mapM_eq_ok_iff]
  simp only [integer_eq_ok_iff]; rfl

theorem transition_eq_ok_iff {t : Transition} : transition line number = .ok t ↔ Reads line t := by
  unfold transition
  constructor
  · intro h
    split at h
    · next source c target hw =>
      obtain ⟨q, hq, h⟩ := Except.bind_eq_ok_iff.1 h
      obtain ⟨b, hb, h⟩ := Except.bind_eq_ok_iff.1 h
      obtain ⟨r, hr, h⟩ := Except.bind_eq_ok_iff.1 h
      cases h
      obtain rfl := symbol_eq_ok_iff.1 hb
      exact ⟨source, target, hw, integer_eq_ok_iff.1 hq, integer_eq_ok_iff.1 hr⟩
    · cases h
  · rintro ⟨source, target, hw, hs, ht⟩
    rw [hw]
    show (integer line number .sourceNotInteger source >>= _) = _
    rw [integer_eq_ok_iff.2 hs, symbol_eq_ok_iff.2 rfl, integer_eq_ok_iff.2 ht]; rfl

theorem reads_trim {t : Transition} : Reads (Text.trim line) t ↔ Reads line t := by
  unfold Reads; rw [Text.words_trim]

theorem lists_trim {ids : List Int} : Lists (Text.trim line) ids ↔ Lists line ids := by
  unfold Lists; rw [Text.words_trim]

/-- A symbol that is read is a word of its own, so it is not blank. -/
theorem Reads.isBlank {t : Transition} (h : Reads line t) : Text.isBlank t.symbol = false := by
  obtain ⟨source, target, hw, -, -⟩ := h
  have hmem : String.singleton t.symbol ∈ Text.words line := by rw [hw]; simp
  obtain ⟨w, hw', hs⟩ := List.mem_map.1 hmem
  refine (Text.isWord_of_mem hw').2 t.symbol ?_
  rw [← String.toList_ofList (l := w), hs]; simp

theorem words_eq {s : String} {ws : List String} (h : Text.blankSeparated s.toList = ws.map String.toList) :
    Text.words s = ws := by
  rw [Text.words, h, List.map_map]
  simp [Function.comp_def]

theorem isWord_of_denotes {s : List Char} {n : Int} (h : Numeral.Denotes s n) : Text.IsWord s := by
  obtain ⟨hne, hmem⟩ := h.mem
  refine ⟨hne, fun c hc => ?_⟩
  rcases hmem c hc with rfl | rfl | hd
  · decide
  · decide
  · exact Text.isBlank_of_isDigit hd

theorem isWord_toText (n : Int) : Text.IsWord (Numeral.toText n).toList :=
  isWord_of_denotes (Numeral.denotes_toText n)

theorem words_formatEdge {q t : Int} {c : Char} (hc : Text.isBlank c = false) :
    Text.words (Automaton.formatEdge (q, c, t)) =
      [Numeral.toText q, String.singleton c, Numeral.toText t] := by
  apply words_eq
  have hword : Text.IsWord [c] := ⟨List.cons_ne_nil _ _, fun b hb => by
    rw [List.mem_singleton.1 hb]; exact hc⟩
  have hline : (Automaton.formatEdge (q, c, t)).toList =
      [' '].intercalate [(Numeral.toText q).toList, [c], (Numeral.toText t).toList] := by
    simp [Automaton.formatEdge]
  rw [hline, Text.blankSeparated_intercalate]
  · simp
  · intro w hw
    simp only [List.mem_cons, List.not_mem_nil, or_false] at hw
    rcases hw with rfl | rfl | rfl
    · exact isWord_toText q
    · exact hword
    · exact isWord_toText t

theorem means_formatEdge {q t : Int} {c : Char} (hc : Text.isBlank c = false) :
    Means (Automaton.formatEdge (q, c, t)) ⟨q, c, t⟩ :=
  ⟨_, _, words_formatEdge hc, Numeral.denotes_toText q, Numeral.denotes_toText t⟩

theorem reads_formatEdge {q t : Int} {c : Char} (hc : Text.isBlank c = false) (hq : Numeral.Short q)
    (ht : Numeral.Short t) : Reads (Automaton.formatEdge (q, c, t)) ⟨q, c, t⟩ :=
  ⟨_, _, words_formatEdge hc, Numeral.read_toText hq, Numeral.read_toText ht⟩

theorem words_formatFinals (ids : List Int) :
    Text.words (" ".intercalate (ids.map Numeral.toText)) = ids.map Numeral.toText := by
  apply words_eq
  rw [String.toList_intercalate, List.map_map]
  apply Text.blankSeparated_intercalate
  intro w hw
  obtain ⟨q, -, rfl⟩ := List.mem_map.1 hw
  exact isWord_toText q

theorem lists_formatFinals {ids : List Int} (h : ∀ q ∈ ids, Numeral.Short q) :
    Lists (" ".intercalate (ids.map Numeral.toText)) ids := by
  rw [Lists, words_formatFinals, List.forall₂_map_left_iff, List.forall₂_same]
  exact fun q hq => Numeral.read_toText (h q hq)

end Line

end Acceptor
