/-!
# Sets shown in order

`ascending l` lists the members of `l` once each, in ascending order: the shape in which a set of
states, symbols or strings is kept or shown. It depends on the members of `l` alone.
-/

namespace Acceptor

variable {α : Type _} [LT α] [DecidableLT α]

/-- Puts `a` into its place in an ascending list, unless it is there already. -/
def insertOnce (a : α) : List α → List α
  | [] => [a]
  | b :: l => if a < b then a :: b :: l else if b < a then b :: insertOnce a l else b :: l

def ascending (l : List α) : List α := l.foldr insertOnce []

theorem eq_or_mem_of_mem_insertOnce {a b : α} {l : List α} (h : b ∈ insertOnce a l) :
    b = a ∨ b ∈ l := by
  induction l with
  | nil => exact .inl (List.mem_singleton.1 h)
  | cons c l ih =>
    rw [insertOnce] at h; split at h
    · exact List.mem_cons.1 h
    · split at h
      · rcases List.mem_cons.1 h with rfl | h
        · exact .inr List.mem_cons_self
        · exact (ih h).imp_right (List.mem_cons_of_mem _)
      · exact .inr h

section

variable [Trans (α := α) (· < ·) (· < ·) (· < ·)]

theorem pairwise_insertOnce {a : α} {l : List α} (h : l.Pairwise (· < ·)) :
    (insertOnce a l).Pairwise (· < ·) := by
  induction l with
  | nil => exact List.pairwise_singleton _ _
  | cons b l ih =>
    have hb := List.pairwise_cons.1 h
    rw [insertOnce]; split
    · next hab =>
      refine List.pairwise_cons.2 ⟨fun c hc => ?_, h⟩
      rcases List.mem_cons.1 hc with rfl | hc
      · exact hab
      · exact Trans.trans hab (hb.1 c hc)
    · split
      · next hba =>
        refine List.pairwise_cons.2 ⟨fun c hc => ?_, ih hb.2⟩
        rcases eq_or_mem_of_mem_insertOnce hc with rfl | hc
        · exact hba
        · exact hb.1 c hc
      · exact h

theorem pairwise_ascending (l : List α) : (ascending l).Pairwise (· < ·) := by
  induction l with
  | nil => exact .nil
  | cons a l ih => exact pairwise_insertOnce ih

end

end Acceptor
