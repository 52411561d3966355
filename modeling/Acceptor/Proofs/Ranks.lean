import Acceptor.Proofs.Samples
import Mathlib.Data.Finset.Card

/-!
# Random words and the ranks of symbols

Only the number of symbols reaches the generator, so what the words are spelled from stands apart from the numbers
drawn (`words_with_extra`). Symbols that are the same as a set are the same ascending list. Of two sets of single
characters with the same size each character of the one has one of its rank in the other (`rank_of_getElem?`), and
the words over them differ by this renaming alone (`words_of_ranks`).
-/

namespace Acceptor

section

variable {α : Type _} [LT α] [DecidableLT α] [Std.Irrefl (α := α) (· < ·)]
  [Trans (α := α) (· < ·) (· < ·) (· < ·)]

/-- In an ascending list the smaller ones are those in front. -/
theorem filter_lt_eq_take {l : List α} (h : l.Pairwise (· < ·)) {i : Nat} {a : α} (hi : l[i]? = some a) :
    l.filter (· < a) = l.take i := by
  induction l generalizing i with
  | nil => cases hi
  | cons b l ih =>
    obtain ⟨hb, hl⟩ := List.pairwise_cons.1 h
    cases i with
    | zero =>
      obtain rfl : b = a := Option.some.inj hi
      rw [List.take_zero, List.filter_eq_nil_iff]
      intro c hc hlt
      rcases List.mem_cons.1 hc with rfl | hc
      · exact Std.Irrefl.irrefl c (of_decide_eq_true hlt)
      · exact Std.Irrefl.irrefl b (Trans.trans (hb c hc) (of_decide_eq_true hlt))
    | succ i =>
      rw [List.getElem?_cons_succ] at hi
      have hba : decide (b < a) = true := decide_eq_true (hb a (List.mem_of_getElem? hi))
      rw [List.take_succ_cons, List.filter_cons_of_pos (p := (· < a)) hba, ih hl hi]

variable [DecidableEq α]

/-- How many members of `l`, each counted once, are smaller. -/
def rank (l : List α) (a : α) : Nat := (l.toFinset.filter (· < a)).card

variable [Std.Trichotomous (α := α) (· < ·)]

omit [Std.Irrefl (α := α) (· < ·)] [Trans (α := α) (· < ·) (· < ·) (· < ·)] in
theorem toFinset_ascending (l : List α) : (ascending l).toFinset = l.toFinset := by
  ext a
  simp

theorem length_ascending (l : List α) : (ascending l).length = l.toFinset.card := by
  rw [← toFinset_ascending, List.toFinset_card_of_nodup (pairwise_ascending l).nodup]

theorem rank_of_getElem? {l : List α} {i : Nat} {a : α} (h : (ascending l)[i]? = some a) : rank l a = i := by
  obtain ⟨hi, -⟩ := List.getElem?_eq_some_iff.1 h
  have hfilter : l.toFinset.filter (· < a) = ((ascending l).take i).toFinset := by
    rw [← filter_lt_eq_take (pairwise_ascending l) h]
    ext b
    simp
  rw [rank, hfilter, List.toFinset_card_of_nodup ((pairwise_ascending l).nodup.sublist (List.take_sublist _ _)),
    List.length_take]
  omega

end

namespace Sampling

variable {alphabet alphabet' extra' : List String} {spec : Spec} {entropy entropy' : Nat}

theorem examine_with_extra (hextra : ∀ s ∈ spec.extra, s.length = 1) (hextra' : ∀ s ∈ extra', s.length = 1)
    (size : Nat) : examine size { spec with extra := extra' } = examine size spec := by
  have hcheck : Spec.check { spec with extra := extra' } = spec.check := by
    have hany {l : List String} (h : ∀ s ∈ l, s.length = 1) : l.any (·.length ≠ 1) = false := by simpa using h
    rw [Spec.check, Spec.check, hany hextra, hany hextra']
  rw [examine, examine, hcheck]

theorem numbers_with_extra (hentropy : spec.seed = none → entropy' = entropy) (size : Nat) :
    numbers size { spec with extra := extra' } entropy' = numbers size spec entropy := by
  simp only [numbers]
  cases hseed : spec.seed with
  | none => rw [hentropy hseed]
  | some seed => rfl

theorem words_with_extra (hextra : ∀ s ∈ spec.extra, s.length = 1) (hextra' : ∀ s ∈ extra', s.length = 1)
    (hentropy : spec.seed = none → entropy' = entropy)
    (hsize : (symbols alphabet' { spec with extra := extra' }).length = (symbols alphabet spec).length) :
    words alphabet' { spec with extra := extra' } entropy' =
      (examine (symbols alphabet spec).length spec).map fun _ =>
        (numbers (symbols alphabet spec).length spec entropy).map
          (spell (symbols alphabet' { spec with extra := extra' })) := by
  rw [words_eq, hsize, examine_with_extra hextra hextra', numbers_with_extra hentropy]

/-- The character with the same place in another list. -/
def transfer (cs cs' : List Char) (c : Char) : Char := cs'.getD (cs.idxOf c) c

section

variable {cs cs' : List Char}

theorem map_transfer_getElem? (hcs : cs.Nodup) (hlength : cs'.length = cs.length) (i : Nat) :
    cs[i]?.map (transfer cs cs') = cs'[i]? := by
  rcases Nat.lt_or_ge i cs.length with hi | hi
  · rw [List.getElem?_eq_getElem hi, Option.map_some, transfer, hcs.idxOf_getElem, List.getD_eq_getElem?_getD,
      List.getElem?_eq_getElem (hlength ▸ hi), Option.getD_some]
  · rw [List.getElem?_eq_none hi, List.getElem?_eq_none (hlength ▸ hi), Option.map_none]

theorem spell_transfer (hcs : cs.Nodup) (hlength : cs'.length = cs.length) (picks : List Nat) :
    spell (cs'.map String.singleton) picks = (spell (cs.map String.singleton) picks).map (transfer cs cs') := by
  apply String.toList_inj.1
  rw [String.toList_map, toList_spell, toList_spell, List.map_filterMap]
  simp only [map_transfer_getElem? hcs hlength]

theorem nodup_of_ascending {l : List String} (hl : ascending l = cs.map String.singleton) : cs.Nodup :=
  .of_map String.singleton (hl ▸ (pairwise_ascending l).nodup)

theorem rank_transfer {l l' : List String} (hl : ascending l = cs.map String.singleton)
    (hl' : ascending l' = cs'.map String.singleton) (hlength : cs'.length = cs.length) {c : Char}
    (hc : String.singleton c ∈ l) : String.singleton (transfer cs cs' c) ∈ l' ∧
      rank l' (String.singleton (transfer cs cs' c)) = rank l (String.singleton c) := by
  obtain ⟨i, hi⟩ : ∃ i : Nat, cs[i]? = some c := by
    rw [← mem_ascending, hl] at hc
    obtain ⟨b, hb, heq⟩ := List.mem_map.1 hc
    exact List.mem_iff_getElem?.1 (String.singleton_inj.1 heq ▸ hb)
  have hat : (ascending l)[i]? = some (String.singleton c) := by rw [hl, List.getElem?_map, hi, Option.map_some]
  have hat' : (ascending l')[i]? = some (String.singleton (transfer cs cs' c)) := by
    rw [hl', List.getElem?_map, ← map_transfer_getElem? (nodup_of_ascending hl) hlength, hi]
    rfl
  exact ⟨mem_ascending.1 (List.mem_of_getElem? hat'), by rw [rank_of_getElem? hat, rank_of_getElem? hat']⟩

end

theorem exists_chars_symbols (halphabet : ∀ s ∈ alphabet, s.length = 1) (hextra : ∀ s ∈ spec.extra, s.length = 1) :
    ∃ cs : List Char, symbols alphabet spec = cs.map String.singleton := by
  refine exists_chars fun s hs => ?_
  rcases List.mem_append.1 (mem_symbols.1 hs) with h | h
  · exact halphabet s h
  · exact hextra s h

/-- The same numbers are drawn. -/
theorem words_transfer {cs cs' : List Char} (hextra : ∀ s ∈ spec.extra, s.length = 1)
    (hextra' : ∀ s ∈ extra', s.length = 1) (hentropy : spec.seed = none → entropy' = entropy)
    (hcs : symbols alphabet spec = cs.map String.singleton)
    (hcs' : symbols alphabet' { spec with extra := extra' } = cs'.map String.singleton)
    (hlength : cs'.length = cs.length) : words alphabet' { spec with extra := extra' } entropy' =
      (words alphabet spec entropy).map (List.map (String.map (transfer cs cs'))) := by
  have hsize : (symbols alphabet' { spec with extra := extra' }).length = (symbols alphabet spec).length := by
    rw [hcs, hcs', List.length_map, List.length_map, hlength]
  have hspell := funext (spell_transfer (nodup_of_ascending hcs) hlength)
  rw [words_with_extra hextra hextra' hentropy hsize, words_eq, hcs, hcs', hspell]
  cases examine (cs.map String.singleton).length spec with
  | error refusal => rfl
  | ok => simp [Except.map]

/-- The words depend on the symbols as a set. Over as many other characters the same numbers are drawn, and each
character is replaced by the one of its rank. -/
theorem words_of_ranks (hextra : ∀ s ∈ spec.extra, s.length = 1) (hextra' : ∀ s ∈ extra', s.length = 1)
    (hentropy : spec.seed = none → entropy' = entropy) :
    ((∀ s, s ∈ alphabet' ++ extra' ↔ s ∈ alphabet ++ spec.extra) →
      words alphabet' { spec with extra := extra' } entropy' = words alphabet spec entropy) ∧
    ((∀ s ∈ alphabet, s.length = 1) → (∀ s ∈ alphabet', s.length = 1) →
      (alphabet' ++ extra').toFinset.card = (alphabet ++ spec.extra).toFinset.card →
      ∃ f : Char → Char,
        (∀ c, String.singleton c ∈ alphabet ++ spec.extra → String.singleton (f c) ∈ alphabet' ++ extra' ∧
          rank (alphabet' ++ extra') (String.singleton (f c)) = rank (alphabet ++ spec.extra) (String.singleton c)) ∧
        words alphabet' { spec with extra := extra' } entropy' =
          (words alphabet spec entropy).map (List.map (String.map f)) ∧
        (words alphabet' { spec with extra := extra' } entropy').map (List.map String.length) =
          (words alphabet spec entropy).map (List.map String.length)) := by
  constructor
  · intro h
    have hsymbols : symbols alphabet' { spec with extra := extra' } = symbols alphabet spec := ascending_congr h
    rw [words_with_extra hextra hextra' hentropy (congrArg List.length hsymbols), hsymbols, ← words_eq]
  · intro hsingle hsingle' hcard
    have hsize : (symbols alphabet' { spec with extra := extra' }).length = (symbols alphabet spec).length :=
      (length_ascending _).trans (hcard.trans (length_ascending _).symm)
    obtain ⟨cs, hcs⟩ := exists_chars_symbols hsingle hextra
    obtain ⟨cs', hcs'⟩ : ∃ cs' : List Char,
        symbols alphabet' { spec with extra := extra' } = cs'.map String.singleton :=
      exists_chars_symbols hsingle' hextra'
    have hlength : cs'.length = cs.length := by rwa [hcs, hcs', List.length_map, List.length_map] at hsize
    have hwords := words_transfer hextra hextra' hentropy hcs hcs' hlength
    refine ⟨transfer cs cs', fun c => rank_transfer hcs hcs' hlength, hwords, ?_⟩
    rw [hwords]
    cases words alphabet spec entropy with
    | error refusal => rfl
    | ok ws => simp [Except.map]

/-- Symbols given again and in another place, and other symbols in another order. -/
theorem words_of_ranks_moved :
    words ["a", "b"] ⟨3, 4, ["c"], some 7⟩ 0 = .ok ["cbcc", "aaa", "acc"] ∧
      words ["c", "c", "b"] ⟨3, 4, ["a"], some 7⟩ 1 = .ok ["cbcc", "aaa", "acc"] ∧
      ∃ f : Char → Char, f 'a' = 'x' ∧
        words ["z", "x", "y"] ⟨3, 4, [], some 7⟩ 1 = .ok (["cbcc", "aaa", "acc"].map (String.map f)) := by
  have hdrawn : words ["a", "b"] ⟨3, 4, ["c"], some 7⟩ 0 = .ok ["cbcc", "aaa", "acc"] := by decide +kernel
  have hextra : ∀ s ∈ (⟨3, 4, ["c"], some 7⟩ : Spec).extra, s.length = 1 := by simp [← String.length_toList]
  obtain ⟨hmoved, -⟩ := @words_of_ranks ["a", "b"] ["c", "c", "b"] ["a"] _ 0 1 hextra
    (by simp [← String.length_toList]) (by simp)
  obtain ⟨-, hother⟩ := @words_of_ranks ["a", "b"] ["z", "x", "y"] [] _ 0 1 hextra (by simp) (by simp)
  obtain ⟨f, hf, hwords, -⟩ :=
    hother (by simp [← String.length_toList]) (by simp [← String.length_toList]) (by decide)
  rw [hdrawn] at hwords
  refine ⟨hdrawn, (hmoved fun s => by simp [or_comm, or_left_comm]).trans hdrawn, f, ?_, hwords⟩
  obtain ⟨hmem, hrank⟩ := hf 'a' (.head _)
  have hzero : rank (["a", "b"] ++ ["c"]) (String.singleton 'a') = 0 := by decide
  have hz : rank (["z", "x", "y"] ++ []) "z" ≠ 0 := by decide
  have hy : rank (["z", "x", "y"] ++ []) "y" ≠ 0 := by decide
  rw [hzero] at hrank
  simp only [List.append_nil, List.mem_cons, List.not_mem_nil, or_false] at hmem
  rcases hmem with h | h | h
  · exact absurd (h ▸ hrank) hz
  · exact String.singleton_inj.1 h
  · exact absurd (h ▸ hrank) hy

end Sampling

end Acceptor
