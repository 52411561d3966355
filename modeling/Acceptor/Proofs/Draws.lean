import Acceptor.Proofs.Period

/-!
# Draws in range

A draw is below its bound, whatever the state of the generator and however often a word was drawn again
(`Generator.below_lt`). `Scaled` and `Drawn` say what a draw is without a bound on the redraws: rejected words are
passed over until one is not. The bound is never met: the word 1 is never rejected, and a generator with an odd
increment comes to it in time (`Generator.Odd.drawn_below`). The generators of a seed have one, so numbers that are
drawn one after the other are `Drawn` one after the other (`Generator.FromSeed.drawnMany`).
-/

namespace Acceptor.Generator

variable {size n : Nat} {word : Generator → Nat × Generator} {g : Generator}

theorem word64_lt (g : Generator) : g.word64.1 < 0x10000000000000000 := by
  rw [word64]
  exact BitVec.isLt _

theorem word32_lt (g : Generator) : g.word32.1 < 0x100000000 := by
  rw [word32]
  split
  · exact UInt32.toNat_lt _
  · exact Nat.mod_lt _ (by omega)

/-- Words that fall into the incomplete rest of the words are drawn again. -/
def Rejects (size n w : Nat) : Prop := w * n % size < (size - n) % n

theorem scaled_of_not_rejects (h : ¬ Rejects size n (word g).1) (redraws : Nat) :
    scaled size word n redraws g = ((word g).1 * n / size, (word g).2) := by
  cases redraws with
  | zero => rw [scaled]
  | succ redraws => rw [scaled]; exact if_neg h

theorem scaled_of_rejects (h : Rejects size n (word g).1) (redraws : Nat) :
    scaled size word n (redraws + 1) g = scaled size word n redraws (word g).2 := by
  rw [scaled]; exact if_pos h

theorem scaled_lt (hword : ∀ g, (word g).1 < size) (hn : 0 < n) (redraws : Nat) (g : Generator) :
    (scaled size word n redraws g).1 < n := by
  have hlt (g : Generator) : (word g).1 * n / size < n :=
    Nat.div_lt_of_lt_mul (Nat.mul_lt_mul_of_pos_right (hword g) hn)
  induction redraws generalizing g with
  | zero => rw [scaled]; exact hlt g
  | succ redraws ih =>
    by_cases h : Rejects size n (word g).1
    · rw [scaled_of_rejects h]; exact ih _
    · rw [scaled_of_not_rejects h]; exact hlt g

theorem below_lt (hn : 0 < n) (g : Generator) : (g.below n).1 < n := by
  rw [below]
  split
  · exact hn
  · split
    · exact scaled_lt word32_lt hn _ g
    · exact scaled_lt word64_lt hn _ g

theorem length_manyBelow (n count : Nat) (g : Generator) : (g.manyBelow n count).1.length = count := by
  induction count generalizing g with
  | zero => rfl
  | succ count ih => rw [manyBelow]; simp [ih]

theorem lt_of_mem_manyBelow (hn : 0 < n) {count i : Nat} (h : i ∈ (manyBelow n count g).1) : i < n := by
  induction count generalizing g with
  | zero => cases h
  | succ count ih =>
    rw [manyBelow] at h
    rcases List.mem_cons.1 h with rfl | h
    · exact below_lt hn g
    · exact ih h

/-! ### Redraws end -/

/-- The first word that is not rejected, scaled to a number below `n`. -/
inductive Scaled (size : Nat) (word : Generator → Nat × Generator) (n : Nat) : Generator → Nat × Generator → Prop
  | accept {g : Generator} (h : ¬ Rejects size n (word g).1) :
    Scaled size word n g ((word g).1 * n / size, (word g).2)
  | redraw {g : Generator} {r : Nat × Generator} (h : Rejects size n (word g).1)
    (next : Scaled size word n (word g).2 r) : Scaled size word n g r

/-- A number below `n`, drawn without a bound on the words that are rejected. -/
inductive Drawn (n : Nat) (g : Generator) : Nat × Generator → Prop
  | only (h : n ≤ 1) : Drawn n g (0, g)
  | narrow {r : Nat × Generator} (hone : 1 < n) (hn : n ≤ 0x100000000) (h : Scaled 0x100000000 word32 n g r) :
    Drawn n g r
  | wide {r : Nat × Generator} (hn : 0x100000000 < n) (h : Scaled 0x10000000000000000 word64 n g r) : Drawn n g r

namespace Scaled

variable {redraws : Nat}

theorem scaled_accept (h : ¬ Rejects size n (word g).1) : Scaled size word n g (scaled size word n redraws g) := by
  rw [scaled_of_not_rejects h]; exact .accept h

theorem scaled_succ (h : Scaled size word n (word g).2 (scaled size word n redraws (word g).2)) :
    Scaled size word n g (scaled size word n (redraws + 1) g) := by
  by_cases hr : Rejects size n (word g).1
  · rw [scaled_of_rejects hr]; exact .redraw hr h
  · exact scaled_accept hr

end Scaled

theorem not_rejects_one (hn : 0 < n) (hsize : n ≤ size) : ¬ Rejects size n 1 := by
  rw [Rejects, Nat.one_mul, Nat.not_lt]
  rcases Nat.lt_or_eq_of_le hsize with h | rfl
  · rw [Nat.mod_eq_of_lt h]; exact (Nat.mod_lt _ hn).le
  · simp

theorem word64_snd (g : Generator) : g.word64.2 = g.advance := by rw [word64]

theorem word64_of_state (h : g.advance.state = 1) : g.word64.1 = 1 := by
  rw [word64]
  dsimp only
  rw [h]
  decide

@[simp] theorem spare_advance (g : Generator) : g.advance.spare = g.spare := by rw [advance]

theorem word32_of_spare {half : UInt32} (h : g.spare = some half) : g.word32.2 = { g with spare := none } := by
  rw [word32, h]

theorem word32_of_none (h : g.spare = none) :
    g.word32.1 = g.word64.1 % 0x100000000 ∧
      g.word32.2 = { g.advance with spare := some (UInt32.ofNat (g.word64.1 / 0x100000000)) } := by
  rw [word32, h, ← word64_snd]
  exact ⟨rfl, rfl⟩

/-- Two halves use up one word of 64 bits. -/
theorem word32_word32 (h : g.spare = none) : g.word32.2.word32.2 = g.advance := by
  rw [(word32_of_none h).2, word32_of_spare rfl]
  have hspare : g.advance.spare = none := (spare_advance g).trans h
  revert hspare
  cases g.advance
  rintro rfl
  rfl

section

variable {k redraws : Nat}

theorem scaled_word64_of_state (hn : 0 < n) (hsize : n ≤ 0x10000000000000000) (hk : k ≤ redraws)
    (hstate : (advance^[k] g.advance).state = 1) :
    Scaled 0x10000000000000000 word64 n g (scaled 0x10000000000000000 word64 n redraws g) := by
  induction k generalizing g redraws with
  | zero =>
    rw [Function.iterate_zero, id_eq] at hstate
    refine Scaled.scaled_accept ?_
    rw [word64_of_state hstate]
    exact not_rejects_one hn hsize
  | succ k ih =>
    obtain ⟨redraws, rfl⟩ := Nat.exists_eq_add_of_le' (Nat.le_of_add_left_le hk)
    rw [Function.iterate_succ_apply] at hstate
    refine Scaled.scaled_succ ?_
    rw [word64_snd]
    exact ih (by omega) hstate

theorem scaled_word32_of_state (hn : 0 < n) (hsize : n ≤ 0x100000000) (hspare : g.spare = none) (hk : 2 * k ≤ redraws)
    (hstate : (advance^[k] g.advance).state = 1) :
    Scaled 0x100000000 word32 n g (scaled 0x100000000 word32 n redraws g) := by
  induction k generalizing g redraws with
  | zero =>
    rw [Function.iterate_zero, id_eq] at hstate
    refine Scaled.scaled_accept ?_
    rw [(word32_of_none hspare).1, word64_of_state hstate]
    exact not_rejects_one hn hsize
  | succ k ih =>
    obtain ⟨redraws, rfl⟩ : ∃ r, redraws = r + 2 := ⟨redraws - 2, by omega⟩
    rw [Function.iterate_succ_apply] at hstate
    refine Scaled.scaled_succ (Scaled.scaled_succ ?_)
    rw [word32_word32 hspare]
    exact ih ((spare_advance g).trans hspare) (by omega) hstate

end

theorem two_pow_lt_period : 2 * 2 ^ 128 < period := by decide

theorem Odd.scaled_word32 (h : g.Odd) (hn : 0 < n) (hsize : n ≤ 0x100000000) :
    Scaled 0x100000000 word32 n g (scaled 0x100000000 word32 n period g) := by
  have hperiod := two_pow_lt_period
  cases hspare : g.spare with
  | none =>
    obtain ⟨k, hk, hstate⟩ := h.advance.exists_advance 1
    exact scaled_word32_of_state hn hsize hspare (by omega) hstate
  | some half =>
    -- the half of a word that is left comes before all others
    have hrest : Odd { g with spare := none } := h
    obtain ⟨k, hk, hstate⟩ := hrest.advance.exists_advance 1
    obtain ⟨redraws, hredraws⟩ : ∃ r, period = r + 1 := ⟨period - 1, by omega⟩
    rw [hredraws]
    refine Scaled.scaled_succ ?_
    rw [word32_of_spare hspare]
    exact scaled_word32_of_state (k := k) hn hsize rfl (by omega) hstate

theorem Odd.scaled_word64 (h : g.Odd) (hn : 0 < n) (hsize : n ≤ 0x10000000000000000) :
    Scaled 0x10000000000000000 word64 n g (scaled 0x10000000000000000 word64 n period g) := by
  have hperiod := two_pow_lt_period
  obtain ⟨k, hk, hstate⟩ := h.advance.exists_advance 1
  exact scaled_word64_of_state hn hsize (by omega) hstate

/-- No draw meets the bound on redraws. -/
theorem Odd.drawn_below (h : g.Odd) (hn : n ≤ 0x10000000000000000) : Drawn n g (g.below n) := by
  rw [below]
  split
  · next hone => exact .only hone
  · next hone =>
    split
    · next hsmall => exact .narrow (by omega) hsmall (h.scaled_word32 (by omega) hsmall)
    · next hlarge => exact .wide (by omega) (h.scaled_word64 (by omega) hn)

theorem increment_word64 (g : Generator) : g.word64.2.increment = g.increment := by
  rw [word64_snd, increment_advance]

theorem increment_word32 (g : Generator) : g.word32.2.increment = g.increment := by
  cases hspare : g.spare with
  | none => rw [(word32_of_none hspare).2]; exact increment_advance g
  | some half => rw [word32_of_spare hspare]

theorem increment_scaled (hword : ∀ g, (word g).2.increment = g.increment) (redraws : Nat) (g : Generator) :
    (scaled size word n redraws g).2.increment = g.increment := by
  induction redraws generalizing g with
  | zero => rw [scaled]; exact hword g
  | succ redraws ih =>
    by_cases h : Rejects size n (word g).1
    · rw [scaled_of_rejects h, ih, hword]
    · rw [scaled_of_not_rejects h]; exact hword g

theorem increment_below (n : Nat) (g : Generator) : (g.below n).2.increment = g.increment := by
  rw [below]
  split
  · rfl
  · split
    · exact increment_scaled increment_word32 _ g
    · exact increment_scaled increment_word64 _ g

/-- The generators that come up after a seed, draw by draw. -/
inductive FromSeed (seed : Nat) : Generator → Prop
  | seed : FromSeed seed (ofSeed seed)
  | draw {g : Generator} (h : FromSeed seed g) (n : Nat) : FromSeed seed (g.below n).2

/-- Numbers below `n`, each drawn from what the one before it has left of the generator. -/
inductive DrawnMany (n : Nat) : Generator → List Nat × Generator → Prop
  | nil {g : Generator} : DrawnMany n g ([], g)
  | cons {g : Generator} {first : Nat × Generator} {rest : List Nat × Generator} (h : Drawn n g first)
    (next : DrawnMany n first.2 rest) : DrawnMany n g (first.1 :: rest.1, rest.2)

theorem manyBelow_succ (n count : Nat) (g : Generator) : g.manyBelow n (count + 1) =
    ((g.below n).1 :: ((g.below n).2.manyBelow n count).1, ((g.below n).2.manyBelow n count).2) := by
  rw [manyBelow]

namespace FromSeed

variable {seed : Nat}

theorem odd (h : FromSeed seed g) : g.Odd := by
  induction h with
  | seed => exact odd_ofSeed seed
  | draw _ n ih => rwa [Generator.Odd, increment_below]

theorem manyBelow (h : FromSeed seed g) (n count : Nat) : FromSeed seed (g.manyBelow n count).2 := by
  induction count generalizing g with
  | zero => exact h
  | succ count ih => rw [manyBelow_succ]; exact ih (h.draw n)

theorem drawnMany (h : FromSeed seed g) (hn : n ≤ 0x10000000000000000) (count : Nat) :
    DrawnMany n g (g.manyBelow n count) := by
  induction count generalizing g with
  | zero => exact .nil
  | succ count ih => rw [manyBelow_succ]; exact .cons (h.odd.drawn_below hn) (ih (h.draw n))

end FromSeed

end Acceptor.Generator
