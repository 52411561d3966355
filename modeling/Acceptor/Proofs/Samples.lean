import Acceptor.Proofs.Draws
import Acceptor.Proofs.Paths
import Acceptor.Sampling.Words
import Mathlib.Data.String.Basic

/-!
# Random words and the numbers they are spelled from

A word is spelled from numbers of symbols, which are drawn without a look at the symbols: only how many there are
reaches the generator (`words_eq`). The numbers are those of symbols (`Shaped`), so nothing is lost when a word is
spelled, and a word of symbols that are single characters has one character for each number (`toList_spell`).
-/

namespace Acceptor.Sampling

/-- The word with the symbols of these numbers. -/
def spell (symbols : List String) (numbers : List Nat) : String := String.join (numbers.filterMap (symbols[·]?))

/-- For words of the given lengths the numbers of their symbols. -/
def drawNumbers (size : Nat) : (lengths : List Nat) → Generator → List (List Nat)
  | [], _ => []
  | length :: lengths, g =>
    let (numbers, g) := g.manyBelow size length
    numbers :: drawNumbers size lengths g

/-- The numbers of all words, for a given number of symbols. -/
def numbers (size : Nat) (spec : Spec) (entropy : Nat) : List (List Nat) :=
  let g := Generator.ofSeed ((spec.seed.map Int.toNat).getD entropy)
  let (lengths, g) := g.manyBelow (spec.maxLength.toNat + 1) spec.count.toNat
  drawNumbers size lengths g

/-- The reasons for which nothing is drawn; of the symbols only their number matters. -/
def examine (size : Nat) (spec : Spec) : Except Refusal Unit := do
  spec.check
  if size = 0 then .error .emptyAlphabet
  else if spec.seed.any (· < 0) then .error .negativeSeed
  else if 0x8000000000000000 < spec.maxLength + 1 then .error .lengthTooLarge
  else return ()

theorem draw_eq (symbols : List String) (lengths : List Nat) (g : Generator) :
    draw symbols lengths g = (drawNumbers symbols.length lengths g).map (spell symbols) := by
  induction lengths generalizing g with
  | nil => rfl
  | cons length lengths ih => simp only [draw, drawNumbers, ih, List.map_cons, spell]

variable {alphabet : List String} {spec : Spec}

/-- The symbols come in only when the numbers have been drawn. -/
theorem words_eq (alphabet : List String) (spec : Spec) (entropy : Nat) :
    words alphabet spec entropy = (examine (symbols alphabet spec).length spec).map fun _ =>
      (numbers (symbols alphabet spec).length spec entropy).map (spell (symbols alphabet spec)) := by
  have hfrom (symbols : List String) (count maxLength : Nat) (g : Generator) :
      wordsFrom symbols count maxLength g = draw symbols (g.manyBelow (maxLength + 1) count).1
        (g.manyBelow (maxLength + 1) count).2 := rfl
  rw [words, examine]
  cases spec.check with
  | error refusal => rfl
  | ok =>
    simp only [List.length_eq_zero_iff, hfrom, draw_eq]
    show (if _ then _ else _) = Except.map _ (if _ then _ else _)
    split
    · rfl
    · split
      · rfl
      · split <;> rfl

/-! ### Shape -/

/-- As many words as wanted, none of them too long, and numbers of symbols only. -/
structure Shaped (size count maxLength : Nat) (words : List (List Nat)) : Prop where
  count : words.length = count
  length_le : ∀ numbers ∈ words, numbers.length ≤ maxLength
  lt : ∀ numbers ∈ words, ∀ i ∈ numbers, i < size

theorem map_length_drawNumbers (size : Nat) (lengths : List Nat) (g : Generator) :
    (drawNumbers size lengths g).map List.length = lengths := by
  induction lengths generalizing g with
  | nil => rfl
  | cons length lengths ih => rw [drawNumbers, List.map_cons, ih, Generator.length_manyBelow]

theorem lt_of_mem_drawNumbers {size : Nat} (hsize : 0 < size) {lengths : List Nat} {g : Generator}
    {numbers : List Nat} (h : numbers ∈ drawNumbers size lengths g) : ∀ i ∈ numbers, i < size := by
  induction lengths generalizing g with
  | nil => cases h
  | cons length lengths ih =>
    rw [drawNumbers] at h
    rcases List.mem_cons.1 h with rfl | h
    · exact fun i => Generator.lt_of_mem_manyBelow hsize
    · exact ih h

theorem shaped_numbers {size : Nat} (hsize : 0 < size) (spec : Spec) (entropy : Nat) :
    Shaped size spec.count.toNat spec.maxLength.toNat (numbers size spec entropy) := by
  set g := Generator.ofSeed ((spec.seed.map Int.toNat).getD entropy) with hg
  obtain ⟨lengths, g', hlengths⟩ : ∃ lengths g', g.manyBelow (spec.maxLength.toNat + 1) spec.count.toNat =
      (lengths, g') := ⟨_, _, rfl⟩
  have hnumbers : numbers size spec entropy = drawNumbers size lengths g' := by
    rw [numbers, ← hg, hlengths]
  have hmap := map_length_drawNumbers size lengths g'
  rw [hnumbers]
  refine ⟨?_, fun numbers h => ?_, fun numbers h => lt_of_mem_drawNumbers hsize h⟩
  · have hcount := g.length_manyBelow (spec.maxLength.toNat + 1) spec.count.toNat
    rw [hlengths] at hcount
    rw [← List.length_map, hmap, hcount]
  · have hmem : numbers.length ∈ lengths := by
      rw [← hmap]
      exact List.mem_map_of_mem h
    rw [← show (g.manyBelow (spec.maxLength.toNat + 1) spec.count.toNat).1 = lengths by rw [hlengths]] at hmem
    exact Nat.le_of_lt_succ (Generator.lt_of_mem_manyBelow (Nat.succ_pos _) hmem)

/-! ### Symbols that are single characters -/

theorem exists_chars {l : List String} (h : ∀ s ∈ l, s.length = 1) :
    ∃ cs : List Char, l = cs.map String.singleton := by
  induction l with
  | nil => exact ⟨[], rfl⟩
  | cons s l ih =>
    obtain ⟨hs, hl⟩ := List.forall_mem_cons.1 h
    obtain ⟨cs, rfl⟩ := ih hl
    rw [← String.length_toList, List.length_eq_one_iff] at hs
    obtain ⟨c, hc⟩ := hs
    have hs : s = String.singleton c := String.toList_inj.1 (by simp [hc])
    exact ⟨c :: cs, by rw [hs, List.map_cons]⟩

theorem toList_spell (cs : List Char) (numbers : List Nat) :
    (spell (cs.map String.singleton) numbers).toList = numbers.filterMap (cs[·]?) := by
  rw [spell, String.toList_join]
  induction numbers with
  | nil => rfl
  | cons i numbers ih =>
    rw [List.filterMap_cons, List.filterMap_cons, List.getElem?_map]
    cases cs[i]? with
    | none => exact ih
    | some c => simpa using ih

/-- Every number gives a character. -/
theorem toList_spell_of_lt {cs : List Char} {numbers : List Nat} (h : ∀ i ∈ numbers, i < cs.length) :
    (spell (cs.map String.singleton) numbers).toList.map some = numbers.map (cs[·]?) := by
  rw [toList_spell]
  induction numbers with
  | nil => rfl
  | cons i numbers ih =>
    obtain ⟨hi, hnumbers⟩ := List.forall_mem_cons.1 h
    simp [List.getElem?_eq_getElem hi, ih hnumbers]

section

variable {symbols : List String} {numbers : List Nat}

theorem length_spell (hsingle : ∀ s ∈ symbols, s.length = 1) (h : ∀ i ∈ numbers, i < symbols.length) :
    (spell symbols numbers).length = numbers.length := by
  obtain ⟨cs, rfl⟩ := exists_chars hsingle
  rw [List.length_map] at h
  have hlength := congrArg List.length (toList_spell_of_lt h)
  rwa [List.length_map, List.length_map, String.length_toList] at hlength

theorem mem_of_mem_spell (hsingle : ∀ s ∈ symbols, s.length = 1) {c : Char} (h : c ∈ (spell symbols numbers).toList) :
    String.singleton c ∈ symbols := by
  obtain ⟨cs, rfl⟩ := exists_chars hsingle
  rw [toList_spell, List.mem_filterMap] at h
  obtain ⟨i, -, hi⟩ := h
  exact List.mem_map_of_mem (List.mem_of_getElem? hi)

end

theorem mem_symbols {s : String} : s ∈ symbols alphabet spec ↔ s ∈ alphabet ++ spec.extra := mem_ascending

theorem length_symbols_pos (h : alphabet ++ spec.extra ≠ []) : 0 < (symbols alphabet spec).length :=
  List.length_pos_iff.2 fun hnil => h (ascending_eq_nil.1 hnil)

theorem examine_eq_ok {size : Nat} (hsize : 0 < size) (hextra : ∀ s ∈ spec.extra, s.length = 1)
    (hcount : 0 < spec.count) (hmin : 0 ≤ spec.maxLength) (hmax : spec.maxLength + 1 ≤ 0x8000000000000000)
    (hseed : ∀ seed ∈ spec.seed, 0 ≤ seed) : examine size spec = .ok () := by
  have hcheck : spec.check = .ok () := by
    rw [Spec.check, if_neg (by omega), if_neg (by omega), if_neg]
    simpa using hextra
  have hany : ¬ spec.seed.any (· < 0) := by simpa [Option.any_eq_true] using hseed
  rw [examine, hcheck]
  show (if _ then _ else _) = _
  rw [if_neg (by omega), if_neg hany, if_neg (by omega)]
  rfl

/-- The words are there, as many as wanted, of allowed lengths and over the symbols; no number names a symbol that is
not there. So an automaton never gets stuck on words over its own alphabet. The draws behind them are in range, follow
one another, and each is what drawing again without end would give. -/
theorem words_shape (hne : alphabet ++ spec.extra ≠ []) (hsingle : ∀ s ∈ alphabet ++ spec.extra, s.length = 1)
    (hcount : 0 < spec.count) (hmin : 0 ≤ spec.maxLength) (hmax : spec.maxLength + 1 ≤ 0x8000000000000000)
    (hseed : ∀ seed ∈ spec.seed, 0 ≤ seed) (entropy : Nat) :
    (∃ ws : List String, words alphabet spec entropy = .ok ws ∧ (ws.length : Int) = spec.count ∧
      (∀ w ∈ ws, (w.length : Int) ≤ spec.maxLength ∧ ∀ c ∈ w.toList, String.singleton c ∈ alphabet ++ spec.extra) ∧
      ws = (numbers (symbols alphabet spec).length spec entropy).map (spell (symbols alphabet spec)) ∧
      (∀ picks ∈ numbers (symbols alphabet spec).length spec entropy, ∀ i ∈ picks,
        i < (symbols alphabet spec).length) ∧
      ∀ d : Automaton, spec.extra = [] → (∀ s ∈ alphabet, ∃ c ∈ d.alphabet, s = String.singleton c) →
        ∀ w ∈ ws, ∃ q, d.run w = some q) ∧
    (∀ (g : Generator) (n count : Nat), 0 < n → n ≤ 0x8000000000000000 →
      (g.manyBelow n count).1.length = count ∧ ∀ i ∈ (g.manyBelow n count).1, i < n) ∧
    (∀ (g : Generator) (n count : Nat), g.manyBelow n (count + 1) =
      ((g.below n).1 :: ((g.below n).2.manyBelow n count).1, ((g.below n).2.manyBelow n count).2)) ∧
    ∀ (seed n : Nat) (g : Generator), Generator.FromSeed seed g → n ≤ 0x8000000000000000 →
      Generator.Drawn n g (g.below n) ∧ ∀ count,
        Generator.DrawnMany n g (g.manyBelow n count) ∧ Generator.FromSeed seed (g.manyBelow n count).2 := by
  refine ⟨?_, fun g n count hn _ => ⟨g.length_manyBelow n count, fun i => Generator.lt_of_mem_manyBelow hn⟩,
    fun g n count => g.manyBelow_succ n count, fun seed n g h hn => ⟨h.odd.drawn_below (by omega), fun count =>
      ⟨h.drawnMany (by omega) count, h.manyBelow n count⟩⟩⟩
  have hsize := length_symbols_pos hne
  have hshaped := shaped_numbers hsize spec entropy
  have hexamine := examine_eq_ok hsize (fun s hs => hsingle s (List.mem_append_right _ hs)) hcount hmin hmax hseed
  have hsymbols : ∀ s ∈ symbols alphabet spec, s.length = 1 := fun s hs => hsingle s (mem_symbols.1 hs)
  have hchars (picks : List Nat) : ∀ c ∈ (spell (symbols alphabet spec) picks).toList,
      String.singleton c ∈ alphabet ++ spec.extra := fun c hc => mem_symbols.1 (mem_of_mem_spell hsymbols hc)
  refine ⟨_, by rw [words_eq, hexamine]; rfl, ?_, fun w hw => ?_, rfl, hshaped.lt, fun d hextra hd w hw => ?_⟩
  · rw [List.length_map, hshaped.count]
    omega
  · obtain ⟨picks, hpicks, rfl⟩ := List.mem_map.1 hw
    rw [length_spell hsymbols (hshaped.lt picks hpicks)]
    have := hshaped.length_le picks hpicks
    exact ⟨by omega, hchars picks⟩
  · obtain ⟨picks, -, rfl⟩ := List.mem_map.1 hw
    refine Automaton.exists_runFrom d.contains_initial fun c hc => ?_
    have hc := hchars picks c hc
    rw [hextra, List.append_nil] at hc
    obtain ⟨b, hb, heq⟩ := hd _ hc
    rwa [String.singleton_inj.1 heq]

/-- A symbol that is given twice, words over the alphabet of an automaton, and a draw that uses half a word. -/
theorem words_shape_repeated :
    ∃ d : Automaton, d.alphabet = ['a', 'b'] ∧
      (∃ ws : List String, words ["b", "a", "b"] ⟨3, 4, [], some 7⟩ 0 = .ok ws ∧ (ws.length : Int) = 3 ∧
        ∀ w ∈ ws, (w.length : Int) ≤ 4 ∧ ∃ q, d.run w = some q) ∧
      (∀ i ∈ ((Generator.ofSeed 7).manyBelow 5 3).1, i < 5) ∧
      Generator.DrawnMany 5 (.ofSeed 7) ((Generator.ofSeed 7).manyBelow 5 3) := by
  let d : Automaton := ⟨.ofList [(0, .ofList [('a', 0), ('b', 0)])], [0], failure?_eq_none_iff.1 rfl, by decide,
    Automaton.isBlank_of_any rfl⟩
  obtain ⟨⟨ws, hws, hcount, hlength, -, -, hrun⟩, hmany, -, hdrawn⟩ := @words_shape ["b", "a", "b"] ⟨3, 4, [], some 7⟩
    (by simp) (by simp [← String.length_toList]) (by simp) (by simp) (by simp) (by simp) 0
  have halphabet : ∀ s ∈ ["b", "a", "b"], ∃ c ∈ d.alphabet, s = String.singleton c := by
    simp only [List.mem_cons, List.not_mem_nil, or_false]
    rintro s (rfl | rfl | rfl)
    · exact ⟨'b', by decide, rfl⟩
    · exact ⟨'a', by decide, rfl⟩
    · exact ⟨'b', by decide, rfl⟩
  exact ⟨d, by decide, ⟨ws, hws, hcount, fun w hw => ⟨(hlength w hw).1, hrun d rfl halphabet w hw⟩⟩,
    (hmany (.ofSeed 7) 5 3 (by omega) (by omega)).2, ((hdrawn 7 5 _ .seed (by omega)).2 3).1⟩

end Acceptor.Sampling
