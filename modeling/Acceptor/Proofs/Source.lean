import Acceptor.Description.Source
import Acceptor.Proofs.Utf8

/-!
# Raw lines of encoded text

A piece holds a text if it is that text or its bytes (`Piece.Holds`), and these are the pieces that can be
decoded (`Piece.raw_eq_ok_iff`). The bytes of a text, cut at line feeds, are the bytes of its lines
(`byteLines_encode`). A text file takes carriage returns for line ends; without them it is no exception
(`fileLines_encode`).
-/

namespace Acceptor

inductive Piece.Holds : Piece → String → Prop
  | text (s : String) : Holds (.text s) s
  | bytes (s : String) : Holds (.bytes (Text.Utf8.encode s.toList)) s

namespace Piece

variable {p : Piece} {s t : String}

theorem raw_eq_ok_iff : p.raw = .ok s ↔ p.Holds s := by
  constructor
  · intro h
    cases p with
    | text t => cases h; exact .text s
    | bytes data =>
      obtain rfl := Text.Utf8.decodeAll_eq_ok_iff.1 h
      exact .bytes s
  · intro h
    cases h with
    | text => rfl
    | bytes => exact Text.Utf8.decodeAll_encode s

theorem Holds.unique (hs : p.Holds s) (ht : p.Holds t) : s = t :=
  Except.ok.inj ((raw_eq_ok_iff.2 hs).symm.trans (raw_eq_ok_iff.2 ht))

end Piece

namespace Text

theorem byteLines_encode (s : List Char) :
    byteLines (Utf8.encode s) = (textLines s).map fun l => .ok (String.ofList l) := by
  have hline : ∀ l, Utf8.decodeAll (Utf8.encode l) = .ok (String.ofList l) := fun l => by
    rw [← Utf8.decodeAll_encode, String.toList_ofList]
  rw [byteLines, Utf8.splitOnP_encode, List.map_map]
  exact List.map_congr_left fun l _ => hline l

theorem unifyLineEnds_of_notMem {s : List Char} (h : '\r' ∉ s) : unifyLineEnds s = s := by
  induction s with
  | nil => rfl
  | cons c s ih =>
    rw [List.mem_cons, not_or] at h
    rw [unifyLineEnds, ih h.2]
    · rintro t rfl; exact absurd rfl h.1
    · rintro rfl; exact absurd rfl h.1

theorem fileLines_encode {s : List Char} (h : '\r' ∉ s) :
    fileLines (Utf8.encode s) = (textLines s).map fun l => .ok (String.ofList l) := by
  rw [fileLines, Utf8.decode_encode]
  show (textLines (unifyLineEnds s)).map _ = _
  rw [unifyLineEnds_of_notMem h]

end Text

end Acceptor
