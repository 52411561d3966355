import Mathlib.Data.List.Forall2

/-!
# When a sequence of steps succeeds

A sequence of steps that may fail succeeds if each of them does: one step behind another
(`Except.bind_eq_ok_iff`), a step for each element of a list (`mapM_eq_ok_iff`), or one for each element
on what the last one left (`foldlM_eq_ok_iff`). It fails with the error of the first step that does
(`Except.bind_eq_error_iff`, `mapM_eq_error_iff`).
-/

namespace Acceptor

variable {α β ε σ : Type}

theorem Except.bind_eq_ok_iff {x : Except ε α} {f : α → Except ε β} {b : β} :
    x >>= f = .ok b ↔ ∃ a, x = .ok a ∧ f a = .ok b := by
  cases x with
  | error e => exact iff_of_false (fun h => by cases h) fun ⟨_, h, _⟩ => by cases h
  | ok a =>
    constructor
    · intro h; exact ⟨a, rfl, h⟩
    · rintro ⟨_, h, hb⟩; cases h; exact hb

theorem Except.bind_eq_error_iff {x : Except ε α} {f : α → Except ε β} {e : ε} :
    x >>= f = .error e ↔ x = .error e ∨ ∃ a, x = .ok a ∧ f a = .error e := by
  cases x with
  | error e' =>
    constructor
    · intro h; cases h; exact .inl rfl
    · rintro (h | ⟨_, h, _⟩)
      · cases h; rfl
      · cases h
  | ok a =>
    constructor
    · intro h; exact .inr ⟨a, rfl, h⟩
    · rintro (h | ⟨_, h, he⟩)
      · cases h
      · cases h; exact he

theorem Except.toOption_eq_some_iff {x : Except ε α} {a : α} : x.toOption = some a ↔ x = .ok a := by
  cases x <;> simp [Except.toOption]

theorem Except.toOption_eq_none_iff {x : Except ε α} : x.toOption = none ↔ ∃ e, x = .error e := by
  cases x <;> simp [Except.toOption]

theorem mapM_eq_ok_iff {f : α → Except ε β} {l : List α} {m : List β} :
    l.mapM f = .ok m ↔ List.Forall₂ (fun a b => f a = .ok b) l m := by
  induction l generalizing m with
  | nil =>
    rw [List.mapM_nil, List.forall₂_nil_left_iff]
    exact ⟨fun h => by cases h; rfl, fun h => by rw [h]; rfl⟩
  | cons a l ih =>
    simp only [List.mapM_cons, Except.bind_eq_ok_iff, ih, List.forall₂_cons_left_iff]
    constructor
    · rintro ⟨b, hb, bs, hbs, h⟩; cases h; exact ⟨b, bs, hb, hbs, rfl⟩
    · rintro ⟨b, bs, hb, hbs, rfl⟩; exact ⟨b, hb, bs, hbs, rfl⟩

theorem forall₂_eq_ok_iff {f : α → Except ε β} {l : List α} {m : List β} :
    List.Forall₂ (fun a b => f a = .ok b) l m ↔ l.map f = m.map .ok := by
  rw [← List.forall₂_eq_eq_eq, List.forall₂_map_left_iff, List.forall₂_map_right_iff]

/-- The error of a list is that of the first element that has one. -/
theorem mapM_eq_error_iff {f : α → Except ε β} {l : List α} {e : ε} :
    l.mapM f = .error e ↔ ∃ before a after bs, l = before ++ a :: after ∧
      List.Forall₂ (fun a b => f a = .ok b) before bs ∧ f a = .error e := by
  induction l with
  | nil =>
    rw [List.mapM_nil]
    exact iff_of_false (fun h => by cases h) fun ⟨_, _, _, _, h, _⟩ => by simp at h
  | cons a l ih =>
    rw [List.mapM_cons, Except.bind_eq_error_iff]
    constructor
    · rintro (h | ⟨b, hb, h⟩)
      · exact ⟨[], a, l, [], rfl, .nil, h⟩
      · rcases Except.bind_eq_error_iff.1 h with h | ⟨_, _, h⟩
        · obtain ⟨before, a', after, bs, rfl, hbs, ha'⟩ := ih.1 h
          exact ⟨a :: before, a', after, b :: bs, rfl, .cons hb hbs, ha'⟩
        · cases h
    · rintro ⟨before, a', after, bs, h, hbs, ha'⟩
      cases hbs with
      | nil => cases h; exact .inl ha'
      | @cons _ b before bs hb hbs =>
        obtain ⟨rfl, rfl⟩ := List.cons.inj h
        refine .inr ⟨b, hb, Except.bind_eq_error_iff.2 (.inl ?_)⟩
        exact ih.2 ⟨before, a', after, bs, rfl, hbs, ha'⟩

theorem mapM_map_ok {f : β → Except ε α} {g : α → β} {l : List α} (h : ∀ a ∈ l, f (g a) = .ok a) :
    (l.map g).mapM f = .ok l := by
  rw [mapM_eq_ok_iff, List.forall₂_map_left_iff, List.forall₂_same]
  exact h

theorem mapM_eq_some_map {f : α → Option β} {g : α → β} {l : List α}
    (h : ∀ a ∈ l, f a = some (g a)) : l.mapM f = some (l.map g) := by
  induction l with
  | nil => rfl
  | cons a l ih =>
    rw [List.mapM_cons, h a List.mem_cons_self, ih fun b hb => h b (List.mem_cons_of_mem _ hb)]; rfl

/-- What is read is what was written, if reading takes back writing. -/
theorem eq_map_of_mapM {f : α → Except ε β} {g : β → α} (hf : ∀ a b, f a = .ok b → a = g b) {l : List α}
    {m : List β} (h : l.mapM f = .ok m) : l = m.map g := by
  induction mapM_eq_ok_iff.1 h with
  | nil => rfl
  | cons hab hl ih => rw [List.map_cons, ← hf _ _ hab, ← ih (mapM_eq_ok_iff.2 hl)]

theorem exists_of_forall₂ {R : α → β → Prop} {l : List α} {m : List β} (h : List.Forall₂ R l m) {b : β}
    (hb : b ∈ m) : ∃ a ∈ l, R a b := by
  induction h with
  | nil => cases hb
  | cons hab _ ih =>
    rcases List.mem_cons.1 hb with rfl | hb
    · exact ⟨_, List.mem_cons_self, hab⟩
    · obtain ⟨a, ha, h⟩ := ih hb
      exact ⟨a, List.mem_cons_of_mem _ ha, h⟩

/-- If each element has a partner, then all of them have one together. -/
theorem exists_forall₂_iff {R : α → β → Prop} {l : List α} :
    (∃ m, List.Forall₂ R l m) ↔ ∀ a ∈ l, ∃ b, R a b := by
  induction l with
  | nil => exact iff_of_true ⟨[], .nil⟩ (fun _ h => by cases h)
  | cons a l ih =>
    rw [List.forall_mem_cons, ← ih]
    constructor
    · rintro ⟨m, hm⟩
      obtain ⟨b, bs, hb, hbs, -⟩ := List.forall₂_cons_left_iff.1 hm
      exact ⟨⟨b, hb⟩, bs, hbs⟩
    · rintro ⟨⟨b, hb⟩, bs, hbs⟩
      exact ⟨b :: bs, .cons hb hbs⟩

/-- Steps of which each reads an element as a command and then carries it out, which cannot fail in the
states that the commands lead to. -/
theorem foldlM_eq_ok_iff {f : σ → α → Except ε σ} {g : σ → β → σ} {R : α → β → Prop} {P : σ → Prop}
    (hf : ∀ s a s', P s → (f s a = .ok s' ↔ ∃ b, R a b ∧ s' = g s b)) (hP : ∀ s b, P s → P (g s b))
    {l : List α} {s s' : σ} (hs : P s) :
    l.foldlM f s = .ok s' ↔ ∃ bs, List.Forall₂ R l bs ∧ s' = bs.foldl g s := by
  induction l generalizing s with
  | nil =>
    constructor
    · intro h; cases h; exact ⟨[], .nil, rfl⟩
    · rintro ⟨bs, h, rfl⟩
      obtain rfl := List.forall₂_nil_left_iff.1 h; rfl
  | cons a l ih =>
    rw [List.foldlM_cons, Except.bind_eq_ok_iff]
    constructor
    · rintro ⟨t, ht, h⟩
      obtain ⟨b, hb, rfl⟩ := (hf s a t hs).1 ht
      obtain ⟨bs, hbs, rfl⟩ := (ih (hP s b hs)).1 h
      exact ⟨b :: bs, .cons hb hbs, rfl⟩
    · rintro ⟨bs, h, rfl⟩
      obtain ⟨b, bs, hb, hbs, rfl⟩ := List.forall₂_cons_left_iff.1 h
      exact ⟨g s b, (hf s a _ hs).2 ⟨b, hb, rfl⟩, (ih (hP s b hs)).2 ⟨bs, hbs, rfl⟩⟩

end Acceptor
