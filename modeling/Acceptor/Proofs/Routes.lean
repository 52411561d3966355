import Acceptor.Files
import Acceptor.Proofs.Meaning
import Acceptor.Proofs.Source

/-!
# All ways to read a text

A text may come as it is, as its bytes, from a file or in pieces, each of which is a line as text or as bytes
(`Piece.IsLine`). Reading looks only at the trimmed lines and their numbers, so every way leads to the same
builder or the same fault (`ofSource_eq_ofText`).
-/

namespace Acceptor

/-- The piece is the line, with or without the line feed that ends it. -/
inductive Piece.IsLine (p : Piece) (line : String) : Prop
  | bare (h : p.Holds line)
  | ended (h : p.Holds (line ++ "\n"))

theorem Piece.IsLine.trim_raw {p : Piece} {line : String} (h : p.IsLine line) :
    p.raw.map Text.trim = .ok (Text.trim line) := by
  cases h with
  | bare h => rw [raw_eq_ok_iff.2 h]; rfl
  | ended h =>
    rw [raw_eq_ok_iff.2 h]
    exact congrArg Except.ok (Text.trim_append_newline line)

namespace Builder

variable {s : String} {pieces : List Piece}

theorem ofText_eq (s : String) : ofText s = ofLines ((Text.linesOf s).map .ok) := by
  rw [Text.linesOf, List.map_map]; rfl

theorem contentLinesFrom_pieces {lines : List String} (h : List.Forall₂ Piece.IsLine pieces lines)
    (number : Nat) :
    contentLinesFrom number (pieces.map Piece.raw) = contentLinesFrom number (lines.map .ok) := by
  refine contentLinesFrom_congr ?_ number
  induction h with
  | nil => rfl
  | cons hp _ ih => rw [List.map_cons, List.map_cons, hp.trim_raw, ih]; rfl

theorem ofSource_encode (s : String) : ofSource (.bytes (Text.Utf8.encode s.toList)) = ofText s := by
  show ofLines (Text.byteLines _) = _
  rw [Text.byteLines_encode]; rfl

theorem ofFile_of_read {store : Store} {path : String} (h : store.read path = .ok (Text.Utf8.encode s.toList)) :
    ofFile store path = ofText s := by
  rw [ofFile, h]; exact ofSource_encode s

theorem ofSource_eq_ofText (s : String) :
    ofSource (.text s) = ofText s ∧
    ofSource (.bytes (Text.Utf8.encode s.toList)) = ofText s ∧
    (∀ store path, store.read path = .ok (Text.Utf8.encode s.toList) → ofFile store path = ofText s) ∧
    (∀ pieces, List.Forall₂ Piece.IsLine pieces (Text.linesOf s) ∨
        List.Forall₂ Piece.IsLine (pieces ++ [.text ""]) (Text.linesOf s) →
      ofSource (.lines pieces) = ofText s) ∧
    ('\r' ∉ s.toList → ofSource (.file (Text.Utf8.encode s.toList)) = ofText s) := by
  refine ⟨rfl, ofSource_encode s, fun store path => ofFile_of_read, fun pieces hpieces => ?_, fun hcr => ?_⟩
  · rw [ofText_eq]
    refine ofLines_congr ?_
    rcases hpieces with h | h
    · exact contentLinesFrom_pieces h 1
    · -- the last line is empty, and no piece stands for it
      have hlines := contentLinesFrom_pieces h 1
      rw [List.map_append] at hlines
      exact (contentLinesFrom_concat_empty 1 _).symm.trans hlines
  · show ofLines (Text.fileLines _) = _
    rw [Text.fileLines_encode hcr]; rfl

/-- Other separators than the line feed and a symbol of three bytes, in pieces of every kind. -/
theorem ofSource_eq_ofText_mixed :
    ∃ store b, ofText "1\u2028\n0 € 1\n\n1 €\u0085 0\n" = .ok b ∧ b.finals = [1] ∧ b.alphabet = ['€'] ∧
      ofFile store "t.dfa" = .ok b ∧
      ofSource (.file (Text.Utf8.encode "1\u2028\n0 € 1\n\n1 €\u0085 0\n".toList)) = .ok b ∧
      ofSource (.lines [.bytes (Text.Utf8.encode "1\u2028\n".toList), .text "0 € 1\n", .text "",
        .bytes (Text.Utf8.encode "1 €\u0085 0".toList)]) = .ok b := by
  let data := Text.Utf8.encode "1\u2028\n0 € 1\n\n1 €\u0085 0\n".toList
  let store : Store := ⟨[], .ofList [(["t.dfa"], data)]⟩
  obtain ⟨b, hb, hfinals, halphabet⟩ : ∃ b, ofText "1\u2028\n0 € 1\n\n1 €\u0085 0\n" = .ok b ∧
      b.finals = [1] ∧ b.alphabet = ['€'] := ⟨_, rfl, rfl, rfl⟩
  have hstored : (store.read "t.dfa").toOption = some data := by decide +kernel
  have hread : store.read "t.dfa" = .ok data := by
    cases hr : store.read "t.dfa" with
    | error fault => rw [hr] at hstored; cases hstored
    | ok bytes => rw [hr] at hstored; cases hstored; rfl
  have hlines : Text.linesOf "1\u2028\n0 € 1\n\n1 €\u0085 0\n" =
      ["1\u2028", "0 € 1", "", "1 €\u0085 0", ""] := rfl
  obtain ⟨-, -, hstore, hpieces, hfile⟩ := ofSource_eq_ofText "1\u2028\n0 € 1\n\n1 €\u0085 0\n"
  rw [hb] at hstore hpieces hfile
  rw [hlines] at hpieces
  refine ⟨store, b, hb, hfinals, halphabet, hstore store "t.dfa" hread, hfile (by decide), ?_⟩
  refine hpieces _ (.inr ?_)
  exact .cons (.ended (.bytes "1\u2028\n")) <| .cons (.ended (.text "0 € 1\n")) <| .cons (.bare (.text "")) <|
    .cons (.bare (.bytes "1 €\u0085 0")) <| .cons (.bare (.text "")) .nil

end Builder

end Acceptor
