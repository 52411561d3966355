import Acceptor.Text.Blank
import Mathlib.Data.List.TakeWhile

/-!
# Words of a line

A blank cuts a line in two whose words are found separately (`blankSeparated_append_cons`); so trimming
loses no word (`words_trim`), a line is blank if nothing is left of it (`trim_eq_empty_iff`), and words
with single spaces between them are found again (`blankSeparated_intercalate`). The words of a line are the
only ones that it can be taken apart into with blanks around them (`Spaced`, `spaced_iff`).
-/

namespace Acceptor.Text

/-- One or more characters, none of them blank. -/
def IsWord (s : List Char) : Prop := s ≠ [] ∧ ∀ c ∈ s, isBlank c = false

theorem isWord_singleton {c : Char} (h : isBlank c = false) : IsWord (String.singleton c).toList := by
  refine ⟨by simp, fun b hb => ?_⟩
  rw [String.toList_singleton, List.mem_singleton] at hb
  rw [hb]; exact h

theorem isBlank_of_isDigit {c : Char} (h : c.isDigit = true) : isBlank c = false := by
  obtain ⟨h₁, h₂⟩ := Char.isDigit_iff_toNat.1 h
  have h₁ : 48 ≤ c.toNat := h₁
  have h₂ : c.toNat ≤ 57 := h₂
  simp [isBlank, inRanges, blankRanges]; omega

theorem blankSeparated_append_cons (s t : List Char) {c : Char} (hc : isBlank c = true) :
    blankSeparated (s ++ c :: t) = blankSeparated s ++ blankSeparated t := by
  rw [blankSeparated, List.splitOnP_append_cons s t hc, List.filter_append]; rfl

theorem blankSeparated_of_isWord {s : List Char} (h : IsWord s) : blankSeparated s = [s] := by
  rw [blankSeparated, List.splitOnP_eq_singleton h.2]
  simp [h.1]

theorem blankSeparated_of_blank {s : List Char} (h : ∀ c ∈ s, isBlank c = true) : blankSeparated s = [] := by
  induction s with
  | nil => rfl
  | cons c s ih =>
    rw [← List.nil_append (c :: s), blankSeparated_append_cons [] s (h c List.mem_cons_self),
      ih fun b hb => h b (List.mem_cons_of_mem _ hb)]
    rfl

theorem blankSeparated_append_blank (s : List Char) {t : List Char} (h : ∀ c ∈ t, isBlank c = true) :
    blankSeparated (s ++ t) = blankSeparated s := by
  cases t with
  | nil => rw [List.append_nil]
  | cons c t =>
    rw [blankSeparated_append_cons s t (h c List.mem_cons_self),
      blankSeparated_of_blank fun b hb => h b (List.mem_cons_of_mem _ hb), List.append_nil]

theorem blankSeparated_blank_append {s : List Char} (h : ∀ c ∈ s, isBlank c = true) (t : List Char) :
    blankSeparated (s ++ t) = blankSeparated t := by
  induction s with
  | nil => rfl
  | cons c s ih =>
    have hs := ih fun b hb => h b (List.mem_cons_of_mem _ hb)
    rw [← hs]
    exact blankSeparated_append_cons [] (s ++ t) (h c List.mem_cons_self)

theorem not_sep_of_mem_splitOnP {p : Char → Bool} {s w : List Char} (h : w ∈ s.splitOnP p) :
    ∀ c ∈ w, p c = false := by
  induction s generalizing w with
  | nil =>
    rw [List.splitOnP_nil, List.mem_singleton] at h
    subst h; exact fun c hc => absurd hc List.not_mem_nil
  | cons b s ih =>
    rw [List.splitOnP_cons_eq_if_modifyHead] at h
    split at h
    · rcases List.mem_cons.1 h with rfl | h
      · exact fun c hc => absurd hc List.not_mem_nil
      · exact ih h
    · next hb =>
      obtain ⟨v, rest, hs⟩ := List.exists_cons_of_ne_nil (List.splitOnP_ne_nil p s)
      rw [hs, List.modifyHead_cons] at h
      rw [hs] at ih
      rcases List.mem_cons.1 h with rfl | h
      · intro c hc
        rcases List.mem_cons.1 hc with rfl | hc
        · exact Bool.eq_false_iff.2 hb
        · exact ih List.mem_cons_self c hc
      · exact ih (List.mem_cons_of_mem _ h)

/-- Every word that is found is a word. -/
theorem isWord_of_mem {s w : List Char} (h : w ∈ blankSeparated s) : IsWord w := by
  obtain ⟨hw, hne⟩ := List.mem_filter.1 h
  exact ⟨by simpa using hne, not_sep_of_mem_splitOnP hw⟩

/-- Trimming takes blanks from both ends and nothing else. -/
theorem exists_trimBlanks (s : List Char) :
    ∃ l r, s = l ++ trimBlanks s ++ r ∧ (∀ c ∈ l, isBlank c = true) ∧ ∀ c ∈ r, isBlank c = true := by
  refine ⟨s.takeWhile isBlank, ((s.dropWhile isBlank).reverse.takeWhile isBlank).reverse, ?_,
    fun c hc => List.all_eq_true.1 List.all_takeWhile c hc, fun c hc => ?_⟩
  · rw [trimBlanks, List.append_assoc, ← List.reverse_append, List.takeWhile_append_dropWhile,
      List.reverse_reverse, List.takeWhile_append_dropWhile]
  · exact List.all_eq_true.1 List.all_takeWhile c (List.mem_reverse.1 hc)

theorem isBlank_head_dropWhile (s : List Char) : ∀ c ∈ (s.dropWhile isBlank).head?, isBlank c = false := by
  intro c hc
  have h := List.head?_dropWhile_not isBlank s
  rw [hc] at h
  simpa using h

theorem isBlank_head_trimBlanks (s : List Char) : ∀ c ∈ (trimBlanks s).head?, isBlank c = false := by
  -- what is left begins like what is behind the first blanks
  intro c hc
  refine isBlank_head_dropWhile s c ?_
  have hprefix : trimBlanks s <+: s.dropWhile isBlank :=
    List.reverse_suffix.1 (by rw [trimBlanks, List.reverse_reverse]; exact List.dropWhile_suffix _)
  obtain ⟨r, hr⟩ := hprefix
  obtain ⟨t, ht⟩ := List.head?_eq_some_iff.1 hc
  rw [← hr, ht]; rfl

theorem isBlank_getLast_trimBlanks (s : List Char) : ∀ c ∈ (trimBlanks s).getLast?, isBlank c = false := by
  intro c hc
  rw [trimBlanks, List.getLast?_reverse] at hc
  exact isBlank_head_dropWhile _ c hc

theorem blankSeparated_trimBlanks (s : List Char) : blankSeparated (trimBlanks s) = blankSeparated s := by
  obtain ⟨l, r, hs, hl, hr⟩ := exists_trimBlanks s
  conv => rhs; rw [hs]
  rw [blankSeparated_append_blank _ hr, blankSeparated_blank_append hl]

/-- Without words there are only blanks. -/
theorem blankSeparated_eq_nil_iff {s : List Char} : blankSeparated s = [] ↔ ∀ c ∈ s, isBlank c = true := by
  refine ⟨fun h => ?_, blankSeparated_of_blank⟩
  induction s with
  | nil => exact fun c hc => absurd hc List.not_mem_nil
  | cons b s ih =>
    by_cases hb : isBlank b = true
    · have hs : blankSeparated ([b] ++ s) = blankSeparated s :=
        blankSeparated_blank_append (by simpa using hb) s
      exact List.forall_mem_cons.2 ⟨hb, ih (hs.symm.trans h)⟩
    · -- the first character belongs to the first word
      obtain ⟨w, rest, hw⟩ := List.exists_cons_of_ne_nil (List.splitOnP_ne_nil isBlank s)
      rw [blankSeparated, List.splitOnP_cons_eq_if_modifyHead, if_neg hb, hw, List.modifyHead_cons] at h
      cases h

theorem words_trim (s : String) : words (trim s) = words s := by
  rw [words, trim, String.toList_ofList, blankSeparated_trimBlanks]; rfl

theorem trim_of_isWord {s : String} (h : IsWord s.toList) : trim s = s := by
  obtain ⟨l, r, hs, hl, hr⟩ := exists_trimBlanks s.toList
  have hnil {b : List Char} (hmem : ∀ c ∈ b, c ∈ s.toList) (hb : ∀ c ∈ b, isBlank c = true) : b = [] := by
    refine List.eq_nil_iff_forall_not_mem.2 fun c hc => ?_
    have hblank := hb c hc
    rw [h.2 c (hmem c hc)] at hblank; cases hblank
  have hleft : l = [] := hnil (fun c hc => by rw [hs]; simp [hc]) hl
  have hright : r = [] := hnil (fun c hc => by rw [hs]; simp [hc]) hr
  rw [hleft, hright, List.nil_append, List.append_nil] at hs
  rw [trim, ← hs, String.ofList_toList]

/-- Nothing is left of a blank at the end. -/
theorem trimBlanks_concat (s : List Char) {c : Char} (hc : isBlank c = true) :
    trimBlanks (s ++ [c]) = trimBlanks s := by
  rw [trimBlanks, trimBlanks, List.dropWhile_append]
  split
  · next h => rw [List.isEmpty_iff.1 h, List.dropWhile_cons_of_pos hc]; rfl
  · rw [List.reverse_append, List.reverse_singleton, List.singleton_append, List.dropWhile_cons_of_pos hc]

theorem trim_append_newline (s : String) : trim (s ++ "\n") = trim s := by
  rw [trim, String.toList_append]
  show String.ofList (trimBlanks (s.toList ++ ['\n'])) = _
  rw [trimBlanks_concat _ (by decide)]; rfl

theorem trim_eq_empty_iff {s : String} : trim s = "" ↔ ∀ c ∈ s.toList, isBlank c = true := by
  have htrim : trim s = "" ↔ trimBlanks s.toList = [] := by
    rw [trim, ← String.toList_inj, String.toList_ofList]; rfl
  rw [htrim]
  constructor
  · intro h
    obtain ⟨l, r, hs, hl, hr⟩ := exists_trimBlanks s.toList
    rw [h, List.append_nil] at hs
    intro c hc
    rw [hs] at hc
    rcases List.mem_append.1 hc with hc | hc
    · exact hl c hc
    · exact hr c hc
  · intro h
    rw [trimBlanks, List.dropWhile_eq_nil_iff.2 h]; rfl

theorem blankSeparated_intercalate {ws : List (List Char)} (h : ∀ w ∈ ws, IsWord w) :
    blankSeparated ([' '].intercalate ws) = ws := by
  -- the space in front of the next word cuts the line in two
  induction ws with
  | nil => rfl
  | cons w ws ih =>
    have hw := blankSeparated_of_isWord (h w List.mem_cons_self)
    cases ws with
    | nil => rw [List.intercalate_singleton, hw]
    | cons v ws =>
      rw [List.intercalate_cons_cons, List.append_assoc]
      show blankSeparated (w ++ ' ' :: [' '].intercalate (v :: ws)) = _
      rw [blankSeparated_append_cons _ _ (by decide), hw, ih fun x hx => h x (List.mem_cons_of_mem _ hx)]
      rfl

/-- `s` is a run of blanks, or some blanks, a word, and behind it the end or another blank. -/
inductive Spaced : List Char → List (List Char) → Prop
  | blank {b : List Char} (hb : ∀ c ∈ b, isBlank c = true) : Spaced b []
  | word {b w rest : List Char} {ws : List (List Char)} (hb : ∀ c ∈ b, isBlank c = true) (hw : IsWord w)
    (hrest : ∀ c ∈ rest.head?, isBlank c = true) (h : Spaced rest ws) : Spaced (b ++ w ++ rest) (w :: ws)

namespace Spaced

theorem blankSeparated_eq {s : List Char} {ws : List (List Char)} (h : Spaced s ws) : blankSeparated s = ws := by
  induction h with
  | blank hb => exact blankSeparated_of_blank hb
  | @word b w rest ws hb hw hrest _ ih =>
    rw [List.append_assoc, blankSeparated_blank_append hb]
    cases rest with
    | nil => rw [← ih, List.append_nil, blankSeparated_of_isWord hw]; rfl
    | cons c rest =>
      have hc : isBlank c = true := hrest c rfl
      have htail : blankSeparated (c :: rest) = blankSeparated rest := blankSeparated_append_cons [] rest hc
      rw [blankSeparated_append_cons w rest hc, blankSeparated_of_isWord hw, ← htail, ih]; rfl

theorem cons_blank {s : List Char} {ws : List (List Char)} {c : Char} (hc : isBlank c = true) (h : Spaced s ws) :
    Spaced (c :: s) ws := by
  cases h with
  | blank hb => exact .blank (List.forall_mem_cons.2 ⟨hc, hb⟩)
  | word hb hw hrest h => exact .word (b := c :: _) (List.forall_mem_cons.2 ⟨hc, hb⟩) hw hrest h

theorem blank_append {b s : List Char} {ws : List (List Char)} (hb : ∀ c ∈ b, isBlank c = true) (h : Spaced s ws) :
    Spaced (b ++ s) ws := by
  induction b with
  | nil => exact h
  | cons c b ih =>
    rw [List.forall_mem_cons] at hb
    exact (ih hb.2).cons_blank hb.1

theorem exists_cons {s : List Char} {ws : List (List Char)} {c : Char} (hc : isBlank c = false) (h : Spaced s ws) :
    ∃ ws, Spaced (c :: s) ws := by
  -- before a blank the character is a word of its own, otherwise it belongs to the first word
  by_cases hs : ∀ a ∈ s.head?, isBlank a = true
  · have hword : IsWord [c] := ⟨List.cons_ne_nil _ _, by simpa using hc⟩
    exact ⟨[c] :: ws, .word (b := []) (by simp) hword hs h⟩
  · cases h with
    | blank hb => exact absurd (fun a ha => hb a (List.mem_of_mem_head? ha)) hs
    | @word b w rest ws hb hw hrest h =>
      cases b with
      | nil =>
        have hw' : IsWord (c :: w) := ⟨List.cons_ne_nil _ _, List.forall_mem_cons.2 ⟨hc, hw.2⟩⟩
        exact ⟨(c :: w) :: ws, .word (b := []) (by simp) hw' hrest h⟩
      | cons a b =>
        refine absurd (fun x hx => ?_) hs
        cases hx
        exact hb a List.mem_cons_self

end Spaced

theorem exists_spaced (s : List Char) : ∃ ws, Spaced s ws := by
  induction s with
  | nil => exact ⟨[], .blank (by simp)⟩
  | cons c s ih =>
    obtain ⟨ws, h⟩ := ih
    by_cases hc : isBlank c = true
    · exact ⟨ws, h.cons_blank hc⟩
    · exact h.exists_cons (Bool.eq_false_iff.2 hc)

theorem spaced_iff {s : List Char} {ws : List (List Char)} : Spaced s ws ↔ blankSeparated s = ws := by
  refine ⟨Spaced.blankSeparated_eq, fun h => ?_⟩
  obtain ⟨ws', h'⟩ := exists_spaced s
  rwa [← h, h'.blankSeparated_eq]

end Acceptor.Text
