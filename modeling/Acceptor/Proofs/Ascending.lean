import Acceptor.Ascending
import Mathlib.Data.List.Sort

/-!
# Ascending lists as sets

`ascending l` is the one strictly ascending list with the members of `l` (`ascending_eq`), so two lists
with the same members are shown alike (`ascending_congr`).
-/

namespace Acceptor

variable {α : Type _} [LT α] [DecidableLT α]

section

variable [Std.Trichotomous (α := α) (· < ·)]

theorem mem_insertOnce {a b : α} {l : List α} : b ∈ insertOnce a l ↔ b = a ∨ b ∈ l := by
  refine ⟨eq_or_mem_of_mem_insertOnce, fun h => ?_⟩
  induction l with
  | nil => simpa [insertOnce] using h
  | cons c l ih =>
    rw [insertOnce]; split
    · exact List.mem_cons.2 h
    · next hac =>
      split
      · rcases h with h | h
        · exact List.mem_cons_of_mem _ (ih (.inl h))
        · rcases List.mem_cons.1 h with rfl | h
          · exact List.mem_cons_self
          · exact List.mem_cons_of_mem _ (ih (.inr h))
      · next hca =>
        -- `a` is left out only if it is the head, neither of them being less
        rcases h with rfl | h
        · rw [Std.Trichotomous.trichotomous b c hac hca]; exact List.mem_cons_self
        · exact h

@[simp] theorem mem_ascending {a : α} {l : List α} : a ∈ ascending l ↔ a ∈ l := by
  induction l with
  | nil => exact Iff.rfl
  | cons b l ih =>
    show a ∈ insertOnce b (ascending l) ↔ _
    rw [mem_insertOnce, ih, List.mem_cons]

variable [Std.Irrefl (α := α) (· < ·)] [Trans (α := α) (· < ·) (· < ·) (· < ·)]

theorem ascending_eq {l m : List α} (hm : m.Pairwise (· < ·)) (h : ∀ a, a ∈ l ↔ a ∈ m) :
    ascending l = m :=
  (pairwise_ascending l).eq_of_mem_iff hm fun {a} => mem_ascending.trans (h a)

theorem ascending_congr {l m : List α} (h : ∀ a, a ∈ l ↔ a ∈ m) : ascending l = ascending m :=
  ascending_eq (pairwise_ascending m) fun a => (h a).trans mem_ascending.symm

end

theorem ascending_eq_nil {l : List α} : ascending l = [] ↔ l = [] := by
  cases l with
  | nil => simp [ascending]
  | cons a l =>
    refine iff_of_false (fun h => ?_) (List.cons_ne_nil _ _)
    change insertOnce a (ascending l) = [] at h
    cases hl : ascending l with
    | nil => rw [hl] at h; cases h
    | cons b m =>
      rw [hl, insertOnce] at h
      split at h
      · cases h
      · split at h <;> cases h

end Acceptor
