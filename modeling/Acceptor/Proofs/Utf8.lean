import Acceptor.Text.Utf8
import Mathlib.Data.List.Basic

/-!
# Decoding undoes encoding

`Spells bytes n`: the bytes are one of the three forms of a character of more than one byte, shortest for
the code point `n` and not that of a surrogate. The encoder writes these forms (`spells_utf8EncodeChar`),
and they are what the decoder reads (`spells_iff`). So decoding gives back every text that is encoded, with
whatever stands behind it (`decode_encode_append`), and otherwise stops behind the characters that it can
read, at the byte that it names (`exists_rest_of_decode`). Line feeds are bytes of their own, so it makes no
difference whether they are looked for before or after decoding (`splitOnP_encode`).
-/

namespace Acceptor.Text.Utf8

def IsTail (b : UInt8) : Prop := 0x80 ≤ b.toNat ∧ b.toNat ≤ 0xBF

/-- The bytes of a character of more than one byte, and its code point `n`. -/
inductive Spells : List UInt8 → Nat → Prop
  | two {b x : UInt8} {n : Nat} (hb : 0xC2 ≤ b.toNat ∧ b.toNat < 0xE0) (hx : IsTail x)
    (hn : n = b.toNat % 0x20 * 0x40 + x.toNat % 0x40) : Spells [b, x] n
  | three {b x y : UInt8} {n : Nat} (hb : 0xE0 ≤ b.toNat ∧ b.toNat < 0xF0) (hx : IsTail x) (hy : IsTail y)
    (hn : n = (b.toNat % 0x10 * 0x40 + x.toNat % 0x40) * 0x40 + y.toNat % 0x40)
    (hlow : 0x800 ≤ n) (hsurrogate : n < 0xD800 ∨ 0xDFFF < n) : Spells [b, x, y] n
  | four {b x y z : UInt8} {n : Nat} (hb : 0xF0 ≤ b.toNat ∧ b.toNat < 0xF5) (hx : IsTail x) (hy : IsTail y)
    (hz : IsTail z)
    (hn : n = ((b.toNat % 0x08 * 0x40 + x.toNat % 0x40) * 0x40 + y.toNat % 0x40) * 0x40 + z.toNat % 0x40)
    (hlow : 0x10000 ≤ n) (hhigh : n < 0x110000) : Spells [b, x, y, z] n

/-- The bytes `bs` complete the character that has begun with `p`, to the code point `n`. -/
inductive Completes : Partial → List UInt8 → Nat → Prop
  | last {p : Partial} {b : UInt8} (hb : p.low ≤ b ∧ b ≤ p.high) (ho : p.owed = 0) :
    Completes p [b] (p.bits * 0x40 + b.toNat % 0x40)
  | more {p : Partial} {b : UInt8} {bs : List UInt8} {owed n : Nat} (hb : p.low ≤ b ∧ b ≤ p.high)
    (ho : p.owed = owed + 1)
    (h : Completes ⟨p.first, p.bits * 0x40 + b.toNat % 0x40, owed, 0x80, 0xBF⟩ bs n) :
    Completes p (b :: bs) n

variable {b : UInt8} {bs bytes rest : List UInt8} {p : Partial} {n : Nat} {c : Char}

/-! ### One character -/

theorem lead_eq_some_iff : lead b = some p ↔
    (0xC2 ≤ b.toNat ∧ b.toNat < 0xE0 ∧ p = ⟨b, b.toNat % 0x20, 0, 0x80, 0xBF⟩) ∨
    (0xE0 ≤ b.toNat ∧ b.toNat < 0xF0 ∧ p = ⟨b, b.toNat % 0x10, 1, if b = 0xE0 then 0xA0 else 0x80,
      if b = 0xED then 0x9F else 0xBF⟩) ∨
    (0xF0 ≤ b.toNat ∧ b.toNat < 0xF5 ∧ p = ⟨b, b.toNat % 0x08, 2, if b = 0xF0 then 0x90 else 0x80,
      if b = 0xF4 then 0x8F else 0xBF⟩) := by
  have h₁ : b < 0xC2 ↔ b.toNat < 0xC2 := UInt8.lt_iff_toNat_lt
  have h₂ : b < 0xE0 ↔ b.toNat < 0xE0 := UInt8.lt_iff_toNat_lt
  have h₃ : b < 0xF0 ↔ b.toNat < 0xF0 := UInt8.lt_iff_toNat_lt
  have h₄ : b < 0xF5 ↔ b.toNat < 0xF5 := UInt8.lt_iff_toNat_lt
  simp only [lead, h₁, h₂, h₃, h₄]
  grind

theorem completes_zero_iff {bits : Nat} {low high : UInt8} :
    Completes ⟨b, bits, 0, low, high⟩ bs n ↔
      ∃ x : UInt8, bs = [x] ∧ (low.toNat ≤ x.toNat ∧ x.toNat ≤ high.toNat) ∧
        n = bits * 0x40 + x.toNat % 0x40 := by
  constructor
  · intro h
    cases h with
    | last hb => exact ⟨_, rfl, ⟨UInt8.le_iff_toNat_le.1 hb.1, UInt8.le_iff_toNat_le.1 hb.2⟩, rfl⟩
    | more _ ho => cases ho
  · rintro ⟨x, rfl, ⟨hl, hh⟩, rfl⟩
    exact .last ⟨UInt8.le_iff_toNat_le.2 hl, UInt8.le_iff_toNat_le.2 hh⟩ rfl

theorem completes_succ_iff {bits owed : Nat} {low high : UInt8} :
    Completes ⟨b, bits, owed + 1, low, high⟩ bs n ↔
      ∃ (x : UInt8) (xs : List UInt8), bs = x :: xs ∧ (low.toNat ≤ x.toNat ∧ x.toNat ≤ high.toNat) ∧
        Completes ⟨b, bits * 0x40 + x.toNat % 0x40, owed, 0x80, 0xBF⟩ xs n := by
  constructor
  · intro h
    cases h with
    | last _ ho => cases ho
    | more hb ho h =>
      cases ho
      exact ⟨_, _, rfl, ⟨UInt8.le_iff_toNat_le.1 hb.1, UInt8.le_iff_toNat_le.1 hb.2⟩, h⟩
  · rintro ⟨x, xs, rfl, ⟨hl, hh⟩, h⟩
    exact .more ⟨UInt8.le_iff_toNat_le.2 hl, UInt8.le_iff_toNat_le.2 hh⟩ rfl h

theorem toNat_ite_eq {b e x y : UInt8} :
    (b.toNat = e.toNat ∧ (if b = e then x else y).toNat = x.toNat) ∨
      (b.toNat ≠ e.toNat ∧ (if b = e then x else y).toNat = y.toNat) := by
  by_cases h : b = e
  · exact .inl ⟨by rw [h], by rw [if_pos h]⟩
  · exact .inr ⟨mt UInt8.toNat_inj.1 h, by rw [if_neg h]⟩

theorem spells_iff : (∃ p, lead b = some p ∧ Completes p bs n) ↔ Spells (b :: bs) n := by
  -- the narrow ranges of the second byte, as numbers
  have hE0 := toNat_ite_eq (b := b) (e := 0xE0) (x := 0xA0) (y := 0x80)
  have hED := toNat_ite_eq (b := b) (e := 0xED) (x := 0x9F) (y := 0xBF)
  have hF0 := toNat_ite_eq (b := b) (e := 0xF0) (x := 0x90) (y := 0x80)
  have hF4 := toNat_ite_eq (b := b) (e := 0xF4) (x := 0x8F) (y := 0xBF)
  simp only [UInt8.reduceToNat] at hE0 hED hF0 hF4
  constructor
  · rintro ⟨p, hp, h⟩
    rcases lead_eq_some_iff.1 hp with ⟨h₁, h₂, rfl⟩ | ⟨h₁, h₂, rfl⟩ | ⟨h₁, h₂, rfl⟩
    · obtain ⟨x, rfl, hx, hn⟩ := completes_zero_iff.1 h
      exact .two ⟨h₁, h₂⟩ hx hn
    · obtain ⟨x, _, rfl, hx, h⟩ := completes_succ_iff.1 h
      obtain ⟨y, rfl, hy, hn⟩ := completes_zero_iff.1 h
      simp only [UInt8.reduceToNat] at hy
      exact .three ⟨h₁, h₂⟩ ⟨by omega, by omega⟩ hy hn (by omega) (by omega)
    · obtain ⟨x, _, rfl, hx, h⟩ := completes_succ_iff.1 h
      obtain ⟨y, _, rfl, hy, h⟩ := completes_succ_iff.1 h
      obtain ⟨z, rfl, hz, hn⟩ := completes_zero_iff.1 h
      simp only [UInt8.reduceToNat] at hy hz
      exact .four ⟨h₁, h₂⟩ ⟨by omega, by omega⟩ hy hz hn (by omega) (by omega)
  · intro h
    cases h with
    | two hb hx hn =>
      exact ⟨_, lead_eq_some_iff.2 (.inl ⟨hb.1, hb.2, rfl⟩), completes_zero_iff.2 ⟨_, rfl, hx, hn⟩⟩
    | three hb hx hy hn hlow hsurrogate =>
      unfold IsTail at hx hy
      refine ⟨_, lead_eq_some_iff.2 (.inr (.inl ⟨hb.1, hb.2, rfl⟩)), completes_succ_iff.2
        ⟨_, _, rfl, ⟨by omega, by omega⟩, completes_zero_iff.2 ⟨_, rfl, hy, hn⟩⟩⟩
    | four hb hx hy hz hn hlow hhigh =>
      unfold IsTail at hx hy hz
      refine ⟨_, lead_eq_some_iff.2 (.inr (.inr ⟨hb.1, hb.2, rfl⟩)), completes_succ_iff.2
        ⟨_, _, rfl, ⟨by omega, by omega⟩, completes_succ_iff.2 ⟨_, _, rfl, hy,
          completes_zero_iff.2 ⟨_, rfl, hz, hn⟩⟩⟩⟩

theorem utf8EncodeChar_eq (c : Char) : String.utf8EncodeChar c =
    if c.toNat ≤ 0x7F then [UInt8.ofNat c.toNat]
    else if c.toNat ≤ 0x7FF then
      [UInt8.ofNat (c.toNat / 0x40 % 0x20 + 0xC0), UInt8.ofNat (c.toNat % 0x40 + 0x80)]
    else if c.toNat ≤ 0xFFFF then
      [UInt8.ofNat (c.toNat / 0x1000 % 0x10 + 0xE0), UInt8.ofNat (c.toNat / 0x40 % 0x40 + 0x80),
        UInt8.ofNat (c.toNat % 0x40 + 0x80)]
    else
      [UInt8.ofNat (c.toNat / 0x40000 % 0x08 + 0xF0), UInt8.ofNat (c.toNat / 0x1000 % 0x40 + 0x80),
        UInt8.ofNat (c.toNat / 0x40 % 0x40 + 0x80), UInt8.ofNat (c.toNat % 0x40 + 0x80)] := rfl

theorem toNat_ofNat_tail (k : Nat) : (UInt8.ofNat (k % 0x40 + 0x80)).toNat = k % 0x40 + 0x80 :=
  UInt8.toNat_ofNat_of_lt (by show _ < 256; omega)

theorem isTail_ofNat (k : Nat) : IsTail (UInt8.ofNat (k % 0x40 + 0x80)) := by
  unfold IsTail; rw [toNat_ofNat_tail]; omega

theorem spells_utf8EncodeChar (hc : 0x80 ≤ c.toNat) : Spells (String.utf8EncodeChar c) c.toNat := by
  have hvalid : c.toNat < 0xD800 ∨ 0xDFFF < c.toNat ∧ c.toNat < 0x110000 := c.valid
  have hbyte {k : Nat} (hk : k < 256) : (UInt8.ofNat k).toNat = k := UInt8.toNat_ofNat_of_lt hk
  rw [utf8EncodeChar_eq, if_neg (by omega)]
  split
  · have hb := hbyte (k := c.toNat / 0x40 % 0x20 + 0xC0) (by omega)
    refine .two (by omega) (isTail_ofNat _) ?_
    rw [hb, toNat_ofNat_tail]; omega
  split
  · have hb := hbyte (k := c.toNat / 0x1000 % 0x10 + 0xE0) (by omega)
    refine .three (by omega) (isTail_ofNat _) (isTail_ofNat _) ?_ (by omega) (by omega)
    rw [hb, toNat_ofNat_tail, toNat_ofNat_tail]; omega
  · have hb := hbyte (k := c.toNat / 0x40000 % 0x08 + 0xF0) (by omega)
    refine .four (by omega) (isTail_ofNat _) (isTail_ofNat _) (isTail_ofNat _) ?_ (by omega) (by omega)
    rw [hb, toNat_ofNat_tail, toNat_ofNat_tail, toNat_ofNat_tail]; omega

theorem toNat_charOfNat (h : n.isValidChar) : (Char.ofNat n).toNat = n := by
  rw [Char.ofNat, dif_pos h]; rfl

theorem ofNat_eq_of {k : Nat} (h : k = b.toNat) : UInt8.ofNat k = b := by
  rw [h, UInt8.ofNat_toNat]

theorem exists_utf8EncodeChar (h : Spells bs n) : ∃ c : Char, c.toNat = n ∧ String.utf8EncodeChar c = bs := by
  refine ⟨Char.ofNat n, ?_⟩
  cases h with
  | two hb hx hn =>
    unfold IsTail at hx
    have hc := toNat_charOfNat (n := n) (.inl (by omega))
    refine ⟨hc, ?_⟩
    rw [utf8EncodeChar_eq, hc, if_neg (by omega), if_pos (by omega), ofNat_eq_of, ofNat_eq_of]
    · omega
    · omega
  | three hb hx hy hn hlow hsurrogate =>
    unfold IsTail at hx hy
    have hc := toNat_charOfNat (n := n) (by rcases hsurrogate with h | h; exacts [.inl h, .inr ⟨h, by omega⟩])
    refine ⟨hc, ?_⟩
    rw [utf8EncodeChar_eq, hc, if_neg (by omega), if_neg (by omega), if_pos (by omega), ofNat_eq_of,
      ofNat_eq_of, ofNat_eq_of]
    all_goals omega
  | four hb hx hy hz hn hlow hhigh =>
    unfold IsTail at hx hy hz
    have hc := toNat_charOfNat (n := n) (.inr ⟨by omega, hhigh⟩)
    refine ⟨hc, ?_⟩
    rw [utf8EncodeChar_eq, hc, if_neg (by omega), if_neg (by omega), if_neg (by omega), ofNat_eq_of,
      ofNat_eq_of, ofNat_eq_of, ofNat_eq_of]
    all_goals omega

/-! ### Reading what is spelled -/

theorem Completes.decodeFrom (h : Completes p bs n) (rest : List UInt8) :
    decodeFrom (some p) (bs ++ rest) =
      (Char.ofNat n :: (decodeFrom none rest).1, (decodeFrom none rest).2) := by
  induction h with
  | last hb ho => rw [List.singleton_append, Utf8.decodeFrom, if_pos hb, ho]
  | more hb ho _ ih => rw [List.cons_append, Utf8.decodeFrom, if_pos hb, ho]; exact ih

/-- The bytes behind the first ones of a character complete it, or decoding stops at it. -/
theorem completes_or_stops (p : Partial) (bytes : List UInt8) :
    (∃ bs rest n, bytes = bs ++ rest ∧ Completes p bs n) ∨
      ∃ stop, decodeFrom (some p) bytes = ([], some stop) ∧ stop.byte = p.first := by
  induction bytes generalizing p with
  | nil => exact .inr ⟨.cutShort p.first, rfl, rfl⟩
  | cons b bytes ih =>
    by_cases hb : p.low ≤ b ∧ b ≤ p.high
    · cases ho : p.owed with
      | zero => exact .inl ⟨[b], bytes, _, rfl, .last hb ho⟩
      | succ owed =>
        rcases ih ⟨p.first, p.bits * 0x40 + b.toNat % 0x40, owed, 0x80, 0xBF⟩ with
          ⟨bs, rest, n, rfl, h⟩ | ⟨stop, hstop, hbyte⟩
        · exact .inl ⟨b :: bs, rest, n, rfl, .more hb ho h⟩
        · refine .inr ⟨stop, ?_, hbyte⟩
          rw [decodeFrom, if_pos hb, ho]; exact hstop
    · refine .inr ⟨p.refuse b bytes, ?_, ?_⟩
      · rw [decodeFrom, if_neg hb]
      · unfold Partial.refuse
        split
        · next h => exact h.1.symm
        · rfl

theorem first_of_lead (h : lead b = some p) : p.first = b := by
  rcases lead_eq_some_iff.1 h with ⟨-, -, rfl⟩ | ⟨-, -, rfl⟩ | ⟨-, -, rfl⟩ <;> rfl

theorem not_lt_of_lead (h : lead b = some p) : ¬ b < 0x80 := by
  have hlt : b < 0x80 ↔ b.toNat < 0x80 := UInt8.lt_iff_toNat_lt
  rw [hlt]
  rcases lead_eq_some_iff.1 h with ⟨h, -⟩ | ⟨h, -⟩ | ⟨h, -⟩ <;> omega

theorem decode_cons_of_lead (h : lead b = some p) (bytes : List UInt8) :
    decode (b :: bytes) = decodeFrom (some p) bytes := by
  rw [decode, decodeFrom, if_neg (not_lt_of_lead h), h]

theorem Spells.decode_append (h : Spells bs n) (rest : List UInt8) :
    decode (bs ++ rest) = (Char.ofNat n :: (decode rest).1, (decode rest).2) := by
  cases bs with
  | nil => cases h
  | cons b bs =>
    obtain ⟨p, hp, h⟩ := spells_iff.2 h
    rw [List.cons_append, decode_cons_of_lead hp, h.decodeFrom]; rfl

theorem decode_utf8EncodeChar_append (c : Char) (rest : List UInt8) :
    decode (String.utf8EncodeChar c ++ rest) = (c :: (decode rest).1, (decode rest).2) := by
  by_cases hc : 0x80 ≤ c.toNat
  · rw [(spells_utf8EncodeChar hc).decode_append, Char.ofNat_toNat]
  · have hb : (UInt8.ofNat c.toNat).toNat = c.toNat := UInt8.toNat_ofNat_of_lt (by show _ < 256; omega)
    have hlt : UInt8.ofNat c.toNat < 0x80 := UInt8.lt_iff_toNat_lt.2 (by rw [hb]; show _ < 128; omega)
    rw [utf8EncodeChar_eq, if_pos (by omega), List.singleton_append, decode, decodeFrom, if_pos hlt, hb,
      Char.ofNat_toNat]; rfl

theorem encode_cons (c : Char) (s : List Char) : encode (c :: s) = String.utf8EncodeChar c ++ encode s := rfl

theorem decode_encode_append (s : List Char) (rest : List UInt8) :
    decode (encode s ++ rest) = (s ++ (decode rest).1, (decode rest).2) := by
  induction s with
  | nil => rfl
  | cons c s ih => rw [encode_cons, List.append_assoc, decode_utf8EncodeChar_append, ih]; rfl

theorem decode_encode (s : List Char) : decode (encode s) = (s, none) := by
  have h := decode_encode_append s []
  rwa [List.append_nil, show decode [] = ([], none) from rfl, List.append_nil] at h

/-- What is decoded are the characters at the front; what is left begins with the byte that is named. -/
theorem exists_rest_of_decode (bytes : List UInt8) :
    ∃ rest, bytes = encode (decode bytes).1 ++ rest ∧
      rest.head? = (decode bytes).2.map Stop.byte := by
  -- on the number of bytes: a character takes one or more of them
  induction hlen : bytes.length using Nat.strongRecOn generalizing bytes with
  | ind len ih =>
    cases bytes with
    | nil => exact ⟨[], rfl, rfl⟩
    | cons b bytes =>
      have hrest {bs rest : List UInt8} {c : Char} (hb : String.utf8EncodeChar c = b :: bs)
          (hbytes : bytes = bs ++ rest) : ∃ rest, b :: bytes = encode (decode (b :: bytes)).1 ++ rest ∧
            rest.head? = (decode (b :: bytes)).2.map Stop.byte := by
        have hsplit : b :: bytes = String.utf8EncodeChar c ++ rest := by rw [hb, hbytes]; rfl
        have hlt : rest.length < len := by
          rw [← hlen, hbytes, List.length_cons, List.length_append]; omega
        obtain ⟨rest', hr, hhead⟩ := ih rest.length hlt rest rfl
        refine ⟨rest', ?_, ?_⟩
        · rw [hsplit, decode_utf8EncodeChar_append, encode_cons, List.append_assoc, ← hr]
        · rw [hsplit, decode_utf8EncodeChar_append]; exact hhead
      by_cases hb : b < 0x80
      · have hlt : b.toNat < 0x80 := UInt8.lt_iff_toNat_lt.1 hb
        have hc : (Char.ofNat b.toNat).toNat = b.toNat := toNat_charOfNat (.inl (by omega))
        have hb₁ : String.utf8EncodeChar (Char.ofNat b.toNat) = [b] := by
          rw [utf8EncodeChar_eq, hc, if_pos (by omega), UInt8.ofNat_toNat]
        exact hrest hb₁ rfl
      cases hp : lead b with
      | none =>
        have hstop : decode (b :: bytes) = ([], some (.illFormed b)) := by
          rw [decode, decodeFrom, if_neg hb, hp]
        rw [hstop]
        exact ⟨b :: bytes, rfl, rfl⟩
      | some p =>
        rcases completes_or_stops p bytes with ⟨bs, rest, n, hbytes, h⟩ | ⟨stop, hstop, hbyte⟩
        · obtain ⟨c, -, hc⟩ := exists_utf8EncodeChar (spells_iff.1 ⟨p, hp, h⟩)
          exact hrest hc hbytes
        · rw [decode_cons_of_lead hp, hstop]
          refine ⟨b :: bytes, rfl, ?_⟩
          rw [Option.map_some, hbyte, first_of_lead hp]; rfl

theorem decodeAll_eq_ok_iff {s : String} : decodeAll bytes = .ok s ↔ bytes = encode s.toList := by
  obtain ⟨rest, hbytes, hhead⟩ := exists_rest_of_decode bytes
  unfold decodeAll
  constructor
  · intro h
    split at h
    · next t hd =>
      cases h
      rw [hd] at hbytes hhead
      rw [List.head?_eq_none_iff.1 hhead, List.append_nil] at hbytes
      rw [String.toList_ofList]; exact hbytes
    · cases h
  · rintro rfl
    rw [decode_encode]
    exact congrArg _ String.ofList_toList

theorem decodeAll_encode (s : String) : decodeAll (encode s.toList) = .ok s := decodeAll_eq_ok_iff.2 rfl

/-! ### Line feeds -/

theorem Spells.le_of_mem (h : Spells bs n) {x : UInt8} (hx : x ∈ bs) : 0x80 ≤ x.toNat := by
  cases h with
  | two hb h₁ =>
    unfold IsTail at h₁
    simp only [List.mem_cons, List.not_mem_nil, or_false] at hx
    rcases hx with rfl | rfl <;> omega
  | three hb h₁ h₂ =>
    unfold IsTail at h₁ h₂
    simp only [List.mem_cons, List.not_mem_nil, or_false] at hx
    rcases hx with rfl | rfl | rfl <;> omega
  | four hb h₁ h₂ h₃ =>
    unfold IsTail at h₁ h₂ h₃
    simp only [List.mem_cons, List.not_mem_nil, or_false] at hx
    rcases hx with rfl | rfl | rfl | rfl <;> omega

theorem lineFeed_notMem (hc : c ≠ '\n') : (0x0A : UInt8) ∉ String.utf8EncodeChar c := by
  intro hmem
  by_cases h : 0x80 ≤ c.toNat
  · have hle : 0x80 ≤ 10 := (spells_utf8EncodeChar h).le_of_mem hmem
    omega
  · rw [utf8EncodeChar_eq, if_pos (by omega), List.mem_singleton] at hmem
    have hb : (UInt8.ofNat c.toNat).toNat = c.toNat := UInt8.toNat_ofNat_of_lt (by show _ < 256; omega)
    have hten : c.toNat = 10 := by rw [← hb, ← hmem]; rfl
    exact hc (Char.toNat_inj.1 hten)

theorem splitOnP_append_of_notMem {xs ys : List UInt8} (h : (0x0A : UInt8) ∉ xs) :
    (xs ++ ys).splitOnP (· == 0x0A) = (ys.splitOnP (· == 0x0A)).modifyHead (xs ++ ·) := by
  induction xs with
  | nil =>
    rw [List.nil_append]
    cases ys.splitOnP (· == 0x0A) <;> rfl
  | cons x xs ih =>
    have hx : (x == 0x0A) = false := beq_eq_false_iff_ne.2 fun hx => h (hx ▸ List.mem_cons_self)
    rw [List.cons_append, List.splitOnP_cons_eq_if_modifyHead, if_neg (by rw [hx]; exact Bool.false_ne_true),
      ih fun hmem => h (List.mem_cons_of_mem _ hmem), List.modifyHead_modifyHead]; rfl

/-- Bytes can be cut into lines before they are decoded. -/
theorem splitOnP_encode (s : List Char) :
    (encode s).splitOnP (· == 0x0A) = (s.splitOnP (· == '\n')).map encode := by
  induction s with
  | nil => rfl
  | cons c s ih =>
    rw [encode_cons, List.splitOnP_cons_eq_if_modifyHead]
    split
    · next hc =>
      obtain rfl := eq_of_beq hc
      rw [List.map_cons, ← ih]
      exact List.splitOnP_append_cons [] _ (by decide)
    · next hc =>
      rw [splitOnP_append_of_notMem (lineFeed_notMem fun h => hc (beq_iff_eq.2 h)), ih]
      cases s.splitOnP (· == '\n') <;> rfl

end Acceptor.Text.Utf8
