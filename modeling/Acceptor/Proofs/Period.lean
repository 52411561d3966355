import Acceptor.Sampling.Generator
import Mathlib.Data.BitVec
import Mathlib.Logic.Function.Iterate
import Mathlib.Tactic.LinearCombination
import Mathlib.Tactic.Ring

/-!
# The generator passes through every state

A step of the generator is `x ↦ x * a + c` on words of 128 bits, where `a` is one more than a multiple of four
and `c` is odd. Then `2^k` steps add `2^k` to a state, up to a multiple of `2^(k+1)` (`exists_iterate_two_pow`), so
the low bits of any state can be reached one after the other (`exists_iterate_add`) and each state comes up
within `2^128` steps (`Generator.exists_advance`). The increment of a seeded generator is odd, and drawing does
not change it.
-/

namespace Acceptor

open Function (iterate_add_apply)

section

variable {R : Type} [CommRing R]

/-- A step with multiplier `a` and increment `c`. -/
def affine (a c x : R) : R := x * a + c

variable {a c : R}

theorem exists_iterate_two_pow (ha : ∃ t, a = 1 + 4 * t) (hc : ∃ s, c = 2 * s + 1) (k : Nat) :
    ∃ t s : R, ∀ x, (affine a c)^[2 ^ k] x = x * (1 + 2 ^ (k + 2) * t) + 2 ^ k * (2 * s + 1) := by
  induction k with
  | zero =>
    obtain ⟨t, rfl⟩ := ha
    obtain ⟨s, rfl⟩ := hc
    refine ⟨t, s, fun x => ?_⟩
    rw [Nat.pow_zero, Function.iterate_one, affine]
    ring
  | succ k ih =>
    -- twice the same step: its multiplier is squared
    obtain ⟨t, s, h⟩ := ih
    refine ⟨t + 2 ^ (k + 1) * t * t, s + 2 ^ k * t * (2 * s + 1), fun x => ?_⟩
    rw [Nat.pow_succ, Nat.mul_two, iterate_add_apply, h, h]
    ring

/-- The low bits of a state are put right one by one. -/
theorem exists_iterate_add (hhalf : ∀ x : R, ∃ y, x = 2 * y ∨ x = 2 * y + 1) (ha : ∃ t, a = 1 + 4 * t)
    (hc : ∃ s, c = 2 * s + 1) (k : Nat) (x y : R) : ∃ n < 2 ^ k, ∃ m, (affine a c)^[n] x = y + 2 ^ k * m := by
  induction k with
  | zero => exact ⟨0, by simp, x - y, by simp⟩
  | succ k ih =>
    obtain ⟨n, hn, m, h⟩ := ih
    obtain ⟨i, rfl | rfl⟩ := hhalf m
    · exact ⟨n, by omega, i, by rw [h]; ring⟩
    · obtain ⟨t, s, hstep⟩ := exists_iterate_two_pow ha hc k
      refine ⟨2 ^ k + n, by omega, i + s + 1 + 2 * t * (y + 2 ^ k * (2 * i + 1)), ?_⟩
      rw [iterate_add_apply, h, hstep]
      ring

end

namespace Generator

theorem two_pow_128 : (2 : BitVec 128) ^ 128 = 0 := by decide +kernel

theorem exists_half (x : BitVec 128) : ∃ y, x = 2 * y ∨ x = 2 * y + 1 := by
  refine ⟨x >>> 1, ?_⟩
  have hx := x.isLt
  rcases Nat.mod_two_eq_zero_or_one x.toNat with h | h
  · left
    apply BitVec.eq_of_toNat_eq
    simp [Nat.shiftRight_eq_div_pow]
    omega
  · right
    apply BitVec.eq_of_toNat_eq
    simp [Nat.shiftRight_eq_div_pow]
    omega

theorem shiftLeft_or_one (x : BitVec 128) : (x <<< 1) ||| 1 = 2 * x + 1 := by
  have hdisjoint : (x <<< 1) &&& 1#128 = 0#128 := by
    apply BitVec.eq_of_getLsbD_eq
    simp
    omega
  have htwo : BitVec.twoPow 128 1 = 2 := by decide
  show (x <<< 1) ||| 1#128 = _
  rw [← BitVec.add_eq_or_of_and_eq_zero _ _ hdisjoint, BitVec.shiftLeft_eq_mul_twoPow, htwo, mul_comm]
  rfl

/-- The increment is odd. -/
def Odd (g : Generator) : Prop := ∃ s, g.increment = 2 * s + 1

variable {g : Generator}

@[simp] theorem increment_advance (g : Generator) : g.advance.increment = g.increment := by rw [advance]

theorem state_advance (g : Generator) :
    g.advance.state = affine 0x2360ed051fc65da44385df649fccf645 g.increment g.state := by
  rw [advance, affine]

theorem Odd.advance (h : g.Odd) : g.advance.Odd := by
  rw [Odd, increment_advance]
  exact h

theorem odd_ofSeed (seed : Nat) : (ofSeed seed).Odd := by
  simp only [Odd, ofSeed, increment_advance]
  exact ⟨_, shiftLeft_or_one _⟩

theorem state_iterate_advance (g : Generator) (n : Nat) :
    (advance^[n] g).state = (affine 0x2360ed051fc65da44385df649fccf645 g.increment)^[n] g.state := by
  induction n generalizing g with
  | zero => rfl
  | succ n ih =>
    rw [Function.iterate_succ_apply, Function.iterate_succ_apply, ih, state_advance, increment_advance]

/-- Every state comes up. -/
theorem Odd.exists_advance (h : g.Odd) (state : BitVec 128) :
    ∃ n < 2 ^ 128, (Generator.advance^[n] g).state = state := by
  have ha : ∃ t, (0x2360ed051fc65da44385df649fccf645 : BitVec 128) = 1 + 4 * t :=
    ⟨0x8d83b4147f1976910e177d927f33d91, by decide⟩
  obtain ⟨n, hn, m, hstate⟩ := exists_iterate_add exists_half ha h 128 g.state state
  rw [two_pow_128, zero_mul, add_zero] at hstate
  exact ⟨n, hn, (state_iterate_advance g n).trans hstate⟩

end Generator

end Acceptor
