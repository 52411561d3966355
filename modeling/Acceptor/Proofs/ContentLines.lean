import Acceptor.Proofs.Reading
import Acceptor.Proofs.Source

/-!
# The content lines of a list of lines

What comes out of a list of lines are the trimmed texts of those that are not blank, each with its position,
up to the first line whose bytes are not well formed (`Numbered`). That line is reported with its position and
the byte behind its longest beginning that is well formed (`FirstIllFormed`), and without one nothing is
reported (`contentLines_pieces`).
-/

namespace Acceptor

namespace Text

/-! ### Where decoding stops -/

namespace Utf8

/-- The bytes are characters one behind the other, each in its shortest form and none a surrogate. -/
inductive WellFormed : List UInt8 → Prop
  | nil : WellFormed []
  | ascii {b : UInt8} {bytes : List UInt8} (hb : b.toNat < 0x80) (h : WellFormed bytes) : WellFormed (b :: bytes)
  | spelled {bs bytes : List UInt8} {n : Nat} (hs : Spells bs n) (h : WellFormed bytes) : WellFormed (bs ++ bytes)

/-- The byte directly behind the longest beginning that is well formed. -/
def FirstIllFormed (bytes : List UInt8) (byte : UInt8) : Prop :=
  ∃ before behind, bytes = before ++ byte :: behind ∧ WellFormed before ∧
    ∀ start, start <+: bytes → WellFormed start → start.length ≤ before.length

variable {bytes : List UInt8} {byte : UInt8}

theorem wellFormed_encode (s : List Char) : WellFormed (encode s) := by
  induction s with
  | nil => exact .nil
  | cons c s ih =>
    rw [encode_cons]
    by_cases hc : 0x80 ≤ c.toNat
    · exact .spelled (spells_utf8EncodeChar hc) ih
    · have hb : (UInt8.ofNat c.toNat).toNat = c.toNat := UInt8.toNat_ofNat_of_lt (by show _ < 256; omega)
      rw [utf8EncodeChar_eq, if_pos (by omega)]
      exact .ascii (by omega) ih

theorem wellFormed_iff : WellFormed bytes ↔ ∃ s, bytes = encode s := by
  constructor
  · intro h
    induction h with
    | nil => exact ⟨[], rfl⟩
    | @ascii b bytes hb _ ih =>
      obtain ⟨s, rfl⟩ := ih
      have hc : (Char.ofNat b.toNat).toNat = b.toNat := toNat_charOfNat (.inl (by omega))
      refine ⟨Char.ofNat b.toNat :: s, ?_⟩
      rw [encode_cons, utf8EncodeChar_eq, hc, if_pos (by omega), UInt8.ofNat_toNat]; rfl
    | spelled hs _ ih =>
      obtain ⟨s, rfl⟩ := ih
      obtain ⟨c, -, rfl⟩ := exists_utf8EncodeChar hs
      exact ⟨c :: s, rfl⟩
  · rintro ⟨s, rfl⟩; exact wellFormed_encode s

/-- A well-formed beginning is decoded, whatever stands behind it. -/
theorem length_le_of_wellFormed {start : List UInt8} (h : start <+: bytes) (hstart : WellFormed start) :
    start.length ≤ (encode (decode bytes).1).length := by
  obtain ⟨s, rfl⟩ := wellFormed_iff.1 hstart
  obtain ⟨rest, rfl⟩ := h
  rw [decode_encode_append, encode, encode, List.flatMap_append, List.length_append]
  exact Nat.le_add_right _ _

theorem firstIllFormed_of_decodeAll (h : decodeAll bytes = .error byte) : FirstIllFormed bytes byte := by
  obtain ⟨rest, hbytes, hhead⟩ := exists_rest_of_decode bytes
  unfold decodeAll at h
  split at h
  · cases h
  · next s stop hd =>
    cases h
    rw [hd] at hbytes hhead
    obtain ⟨behind, rfl⟩ : ∃ behind, rest = stop.byte :: behind := by
      cases rest with
      | nil => cases hhead
      | cons b behind => cases hhead; exact ⟨behind, rfl⟩
    refine ⟨encode s, behind, hbytes, wellFormed_encode s, fun start hstart hwell => ?_⟩
    have hle := length_le_of_wellFormed hstart hwell
    rwa [hd] at hle

theorem not_wellFormed_of_decodeAll (h : decodeAll bytes = .error byte) : ¬ WellFormed bytes := by
  intro hwell
  obtain ⟨s, rfl⟩ := wellFormed_iff.1 hwell
  have hok := decodeAll_encode (String.ofList s)
  rw [String.toList_ofList, h] at hok; cases hok

end Utf8

/-! ### What trimming leaves -/

/-- The text is not empty, and neither begins nor ends with a blank. -/
def Trimmed (s : String) : Prop :=
  s ≠ "" ∧ (∀ c ∈ s.toList.head?, isBlank c = false) ∧ ∀ c ∈ s.toList.getLast?, isBlank c = false

theorem trimmed_trim {s : String} (h : trim s ≠ "") : Trimmed (trim s) := by
  refine ⟨h, ?_, ?_⟩
  · rw [trim, String.toList_ofList]; exact isBlank_head_trimBlanks _
  · rw [trim, String.toList_ofList]; exact isBlank_getLast_trimBlanks _

end Text

/-! ### Numbering -/

/-- The lines are the texts that are not blank, trimmed and in order, with their positions from `number` on. -/
structure Numbered (number : Nat) (texts : List String) (lines : List (Nat × String)) : Prop where
  mem_iff : ∀ line, line ∈ lines ↔
    ∃ i text, texts[i]? = some text ∧ line = (number + i, Text.trim text) ∧ Text.trim text ≠ ""
  ascending : (lines.map (·.1)).Pairwise (· < ·)

namespace Numbered

variable {number : Nat} {text : String} {texts : List String} {lines : List (Nat × String)}

theorem nil (number : Nat) : Numbered number [] [] where
  mem_iff line := by simp
  ascending := .nil

theorem mem_cons_iff (h : Numbered (number + 1) texts lines) (line : Nat × String) :
    (∃ i t, (text :: texts)[i]? = some t ∧ line = (number + i, Text.trim t) ∧ Text.trim t ≠ "") ↔
      line = (number, Text.trim text) ∧ Text.trim text ≠ "" ∨ line ∈ lines := by
  rw [h.mem_iff]
  constructor
  · rintro ⟨i, t, hi, rfl, ht⟩
    cases i with
    | zero => cases hi; exact .inl ⟨rfl, ht⟩
    | succ i => exact .inr ⟨i, t, hi, by rw [Nat.add_right_comm]; rfl, ht⟩
  · rintro (⟨rfl, ht⟩ | ⟨i, t, hi, rfl, ht⟩)
    · exact ⟨0, text, rfl, rfl, ht⟩
    · exact ⟨i + 1, t, hi, by rw [Nat.add_right_comm]; rfl, ht⟩

theorem blank (htext : Text.trim text = "") (h : Numbered (number + 1) texts lines) :
    Numbered number (text :: texts) lines where
  mem_iff line := by rw [h.mem_cons_iff]; simp [htext]
  ascending := h.ascending

theorem content (htext : Text.trim text ≠ "") (h : Numbered (number + 1) texts lines) :
    Numbered number (text :: texts) ((number, Text.trim text) :: lines) where
  mem_iff line := by rw [h.mem_cons_iff, List.mem_cons]; simp [htext]
  ascending := by
    refine List.pairwise_cons.2 ⟨fun n hn => ?_, h.ascending⟩
    obtain ⟨line, hline, rfl⟩ := List.mem_map.1 hn
    obtain ⟨i, t, -, rfl, -⟩ := (h.mem_iff line).1 hline
    show number < number + 1 + i
    omega

theorem trimmed (h : Numbered number texts lines) {line : Nat × String} (hline : line ∈ lines) :
    Text.Trimmed line.2 := by
  obtain ⟨i, t, -, rfl, ht⟩ := (h.mem_iff line).1 hline
  exact Text.trimmed_trim ht

end Numbered

/-- The lines that can be decoded hold `texts`; behind them is the end, or the line that cannot. -/
inductive Decoded (number : Nat) : List Piece → List String → Option ParseError → Prop
  | whole {pieces : List Piece} {texts : List String} (h : List.Forall₂ Piece.Holds pieces texts) :
    Decoded number pieces texts none
  | stopped {pieces rest : List Piece} {texts : List String} {data : List UInt8} {byte : UInt8}
    (h : List.Forall₂ Piece.Holds pieces texts) (hdata : ¬ Text.Utf8.WellFormed data)
    (hbyte : Text.Utf8.FirstIllFormed data byte) :
    Decoded number (pieces ++ .bytes data :: rest) texts
      (some ⟨.undecodable byte, some (number + pieces.length : Nat), none⟩)

theorem Decoded.cons {number : Nat} {p : Piece} {s : String} {pieces : List Piece} {texts : List String}
    {stop : Option ParseError} (hs : p.Holds s) (h : Decoded (number + 1) pieces texts stop) :
    Decoded number (p :: pieces) (s :: texts) stop := by
  cases h with
  | whole h => exact .whole (.cons hs h)
  | @stopped pieces rest texts data byte h hdata hbyte =>
    have hnumber : number + 1 + pieces.length = number + (p :: pieces).length := by
      rw [List.length_cons]; omega
    rw [hnumber, ← List.cons_append]
    exact .stopped (.cons hs h) hdata hbyte

theorem exists_numbered (number : Nat) (pieces : List Piece) :
    ∃ texts, Numbered number texts (contentLinesFrom number (pieces.map Piece.raw)).1 ∧
      Decoded number pieces texts (contentLinesFrom number (pieces.map Piece.raw)).2 := by
  induction pieces generalizing number with
  | nil => exact ⟨[], .nil number, .whole .nil⟩
  | cons p pieces ih =>
    rw [List.map_cons]
    cases hraw : p.raw with
    | error byte =>
      cases p with
      | text s => cases hraw
      | bytes data =>
        have hstop : Decoded number ([] ++ .bytes data :: pieces) [] _ := .stopped .nil
          (Text.Utf8.not_wellFormed_of_decodeAll hraw) (Text.Utf8.firstIllFormed_of_decodeAll hraw)
        exact ⟨[], .nil number, hstop⟩
    | ok s =>
      obtain ⟨texts, hlines, hstop⟩ := ih (number + 1)
      have hs := Piece.raw_eq_ok_iff.1 hraw
      refine ⟨s :: texts, ?_⟩
      by_cases htrim : Text.trim s = ""
      · rw [contentLinesFrom_of_blank _ _ htrim]
        exact ⟨hlines.blank htrim, hstop.cons hs⟩
      · rw [contentLinesFrom_of_content _ _ htrim]
        exact ⟨hlines.content htrim, hstop.cons hs⟩

/-- Up to the first line that is not well formed, the content lines are the trimmed texts that are not blank,
with their positions. -/
theorem contentLines_pieces (pieces : List Piece) :
    let lines := (Source.lines pieces).contentLines.1
    let stop := (Source.lines pieces).contentLines.2
    ∃ good texts, List.Forall₂ Piece.Holds good texts ∧ Numbered 1 texts lines ∧
      (∀ line ∈ lines, Text.Trimmed line.2) ∧
      (pieces = good ∧ stop = none ∨
        ∃ data rest, pieces = good ++ .bytes data :: rest ∧ ¬ Text.Utf8.WellFormed data ∧
          ∃ byte e position, Text.Utf8.FirstIllFormed data byte ∧ stop = some (.parse e) ∧ e.kind = .encoding ∧
            position = good.length + 1 ∧ e.lineNumber = some (position : Int) ∧ e.line = none ∧
            e.message = "line " ++ Numeral.toText position ++ ": " ++
              ("cannot decode byte " ++ Text.quotedByte byte ++ " as UTF-8")) := by
  intro lines stop
  obtain ⟨texts, hlines, hstop⟩ := exists_numbered 1 pieces
  have hstop' : stop = (contentLinesFrom 1 (pieces.map Piece.raw)).2.map .parse := rfl
  generalize (contentLinesFrom 1 (pieces.map Piece.raw)).2 = stop₀ at hstop hstop'
  cases hstop with
  | whole h => exact ⟨pieces, texts, h, hlines, fun _ => hlines.trimmed, .inl ⟨rfl, hstop'⟩⟩
  | @stopped good rest _ data byte h hdata hbyte =>
    exact ⟨good, texts, h, hlines, fun _ => hlines.trimmed, .inr ⟨data, rest, rfl, hdata, byte, _, _, hbyte, hstop',
      rfl, Nat.add_comm .., rfl, rfl, rfl⟩⟩

/-- A blank line counts, a surrogate does not decode, and nothing behind it is looked at. -/
example :
    (Source.lines [.bytes [0x31, 0x0A], .text "\u2003", .text " 0 é 1\x1c", .bytes [0x30, 0xED, 0xA0, 0x80],
      .bytes [0xFF]]).contentLines.1 = [(1, "1"), (3, "0 é 1")] := by decide

end Acceptor
