import Acceptor.Automaton.Failure
import Acceptor.Proofs.OrderedMap

/-!
# Rows as a partial transition function

`Rows.target?` is what rows say, whatever order they were given in: with `addEdge` the last target given
for a state and a symbol wins, and symbols and targets of the rows are those of `target?`. `Rows.rename`
gives states and symbols other names; the verdict of `failure?` does not depend on the names
(`failure?_rename`) nor on how alphabet and final states are listed (`failure?_congr`).
-/

namespace Acceptor

variable {κ σ φ : Type} [BEq κ] [BEq σ]

namespace Rows

/-- The target of the edge for `c` from `q`. -/
def target? (rows : Rows κ σ) (q : κ) (c : σ) : Option κ := (rows.find? q).bind (·.find? c)

/-- The edges of `q`, none if it has no row. -/
def rowOf (rows : Rows κ σ) (q : κ) : OrderedMap σ κ := (rows.find? q).getD ∅

/-- Adds an edge, and a row for its source on first sight. -/
def addEdge (rows : Rows κ σ) (q : κ) (c : σ) (t : κ) : Rows κ σ :=
  rows.insert q ((rows.rowOf q).insert c t)

@[simp] theorem target?_empty (q : κ) (c : σ) : Rows.target? (∅ : Rows κ σ) q c = none := rfl

theorem find?_rowOf (rows : Rows κ σ) (q : κ) (c : σ) : (rows.rowOf q).find? c = rows.target? q c := by
  unfold rowOf target?
  cases rows.find? q <;> rfl

section

variable [LawfulBEq κ]

theorem contains_addEdge (rows : Rows κ σ) (q p : κ) (c : σ) (t : κ) :
    (rows.addEdge q c t).contains p = (q == p || rows.contains p) :=
  OrderedMap.contains_insert _ _ _ _

variable [LawfulBEq σ]

theorem target?_addEdge (rows : Rows κ σ) (q p : κ) (c b : σ) (t : κ) :
    (rows.addEdge q c t).target? p b = if q == p && c == b then some t else rows.target? p b := by
  rw [target?, addEdge, OrderedMap.find?_insert]
  cases hq : q == p with
  | false => simp [target?]
  | true =>
    obtain rfl := eq_of_beq hq
    rw [if_pos rfl, Option.bind_some, OrderedMap.find?_insert, find?_rowOf, Bool.true_and]

theorem mem_symbols_iff {rows : Rows κ σ} {c : σ} :
    c ∈ rows.symbols ↔ ∃ q t, rows.target? q c = some t := by
  simp only [symbols, List.mem_flatMap, OrderedMap.mem_values_iff, OrderedMap.mem_keys_iff,
    OrderedMap.contains_iff, target?, Option.bind_eq_some_iff]
  constructor
  · rintro ⟨row, ⟨q, hq⟩, t, ht⟩; exact ⟨q, t, row, hq, ht⟩
  · rintro ⟨q, t, row, hq, ht⟩; exact ⟨row, ⟨q, hq⟩, t, ht⟩

theorem mem_targets_iff {rows : Rows κ σ} {t : κ} :
    t ∈ rows.targets ↔ ∃ q c, rows.target? q c = some t := by
  simp only [targets, List.mem_flatMap, OrderedMap.mem_values_iff, target?, Option.bind_eq_some_iff]
  constructor
  · rintro ⟨row, ⟨q, hq⟩, c, hc⟩; exact ⟨q, c, row, hq, hc⟩
  · rintro ⟨q, c, row, hq, hc⟩; exact ⟨row, ⟨q, hq⟩, c, hc⟩

theorem mem_symbols_addEdge {rows : Rows κ σ} {q : κ} {c b : σ} {t : κ} :
    b ∈ (rows.addEdge q c t).symbols ↔ b = c ∨ b ∈ rows.symbols := by
  simp only [mem_symbols_iff, target?_addEdge]
  constructor
  · rintro ⟨p, u, h⟩
    split at h
    · next hpb => exact .inl (eq_of_beq (Bool.and_eq_true_iff.1 hpb).2).symm
    · exact .inr ⟨p, u, h⟩
  · rintro (rfl | ⟨p, u, h⟩)
    · exact ⟨q, t, by simp⟩
    -- the edge of `b` may be the one that is replaced, by an edge with the same symbol
    · by_cases hpb : (q == p && c == b) = true
      · exact ⟨p, t, if_pos hpb⟩
      · exact ⟨p, u, by rw [if_neg hpb]; exact h⟩

end

section

variable {κ' σ' : Type} [BEq κ'] [BEq σ'] {f : κ → κ'} (hf : ∀ a b, (f a == f b) = (a == b))
  {g : σ → σ'} (hg : ∀ a b, (g a == g b) = (a == b))

/-- The rows with states renamed by `f` and symbols by `g`, both of which keep different things
different. -/
def rename (rows : Rows κ σ) : Rows κ' σ' := OrderedMap.rename hf (OrderedMap.rename hg f) rows

theorem symbols_rename (rows : Rows κ σ) : (rows.rename hf hg).symbols = rows.symbols.map g := by
  rw [symbols, rename, OrderedMap.values_rename, List.flatMap_map, symbols, List.map_flatMap]
  simp only [OrderedMap.keys_rename]

theorem targets_rename (rows : Rows κ σ) : (rows.rename hf hg).targets = rows.targets.map f := by
  rw [targets, rename, OrderedMap.values_rename, List.flatMap_map, targets, List.map_flatMap]
  simp only [OrderedMap.values_rename]

theorem target?_rename (rows : Rows κ σ) (q : κ) (c : σ) :
    (rows.rename hf hg).target? (f q) (g c) = (rows.target? q c).map f := by
  rw [target?, rename, OrderedMap.find?_rename, target?]
  cases rows.find? q with
  | none => rfl
  | some row => exact OrderedMap.find?_rename hg f row c

theorem rename_addEdge (rows : Rows κ σ) (q : κ) (c : σ) (t : κ) :
    (rows.addEdge q c t).rename hf hg = (rows.rename hf hg).addEdge (f q) (g c) (f t) := by
  have hrow : rowOf (rows.rename hf hg) (f q) = OrderedMap.rename hg f (rows.rowOf q) := by
    rw [rowOf, rowOf, rename, OrderedMap.find?_rename]
    cases rows.find? q <;> rfl
  rw [addEdge, rename, OrderedMap.rename_insert, OrderedMap.rename_insert, addEdge, hrow]; rfl

end

end Rows

section

variable {initial : κ} {rows : Rows κ σ}

/-- The rules do not depend on the order or the repetitions in which symbols and final states are
listed. -/
theorem failure?_congr {φ' : Type} {finals : List φ} {finals' : List φ'} {alphabet alphabet' : List σ}
    (hf : finals = [] ↔ finals' = []) (ha : ∀ c, c ∈ alphabet ↔ c ∈ alphabet') :
    failure? initial rows finals alphabet = failure? initial rows finals' alphabet' := by
  have he : finals.isEmpty = finals'.isEmpty := by
    rw [Bool.eq_iff_iff, List.isEmpty_iff, List.isEmpty_iff, hf]
  have hl : (rows.values.any fun row => alphabet.any fun c => !row.contains c) =
      rows.values.any fun row => alphabet'.any fun c => !row.contains c := by
    rw [Bool.eq_iff_iff]; simp only [List.any_eq_true, ha]
  rw [failure?, failure?, he, hl]

theorem failure?_rename {κ' σ' : Type} [BEq κ'] [BEq σ'] {f : κ → κ'}
    (hf : ∀ a b, (f a == f b) = (a == b)) {g : σ → σ'} (hg : ∀ a b, (g a == g b) = (a == b))
    (finals : List φ) (alphabet : List σ) :
    failure? (f initial) (rows.rename hf hg) finals (alphabet.map g) =
      failure? initial rows finals alphabet := by
  simp only [failure?, Rows.targets_rename, List.any_map, Function.comp_def]
  simp only [Rows.rename, OrderedMap.contains_rename, OrderedMap.values_rename, List.any_map,
    Function.comp_def]

section

variable [LawfulBEq κ]

theorem total_iff {alphabet : List σ} :
    (∀ row ∈ rows.values, ∀ c ∈ alphabet, row.contains c = true) ↔
      ∀ q c, rows.contains q = true → c ∈ alphabet → ∃ t, rows.target? q c = some t := by
  constructor
  · intro h q c hq hc
    obtain ⟨row, hrow⟩ := OrderedMap.contains_iff.1 hq
    obtain ⟨t, ht⟩ := OrderedMap.contains_iff.1 (h row (OrderedMap.mem_values_iff.2 ⟨q, hrow⟩) c hc)
    exact ⟨t, by rw [Rows.target?, hrow]; exact ht⟩
  · intro h row hrow c hc
    obtain ⟨q, hq⟩ := OrderedMap.mem_values_iff.1 hrow
    obtain ⟨t, ht⟩ := h q c (OrderedMap.contains_iff.2 ⟨row, hq⟩) hc
    rw [Rows.target?, hq] at ht
    exact OrderedMap.contains_iff.2 ⟨t, ht⟩

variable [LawfulBEq σ]

theorem closed_iff :
    (∀ t ∈ rows.targets, rows.contains t = true) ↔
      ∀ q c t, rows.target? q c = some t → rows.contains t = true := by
  simp only [Rows.mem_targets_iff]
  constructor
  · intro h q c t ht; exact h t ⟨q, c, ht⟩
  · rintro h t ⟨q, c, ht⟩; exact h q c t ht

/-- The rules in terms of `contains` and `target?`. -/
theorem complete_iff {finals : List φ} {alphabet : List σ} :
    Complete initial rows finals alphabet ↔
      rows.contains initial = true ∧ finals ≠ [] ∧
      (∀ q c, rows.contains q = true → c ∈ alphabet → ∃ t, rows.target? q c = some t) ∧
      ∀ q c t, rows.target? q c = some t → rows.contains t = true := by
  rw [← total_iff, ← closed_iff]
  exact ⟨fun h => ⟨h.initial, h.final, h.total, h.closed⟩, fun ⟨h₁, h₂, h₃, h₄⟩ => ⟨h₁, h₂, h₃, h₄⟩⟩

/-- The rules do not depend on the order of rows and edges. -/
theorem failure?_congr_rows {rows' : Rows κ σ} (finals : List φ) (alphabet : List σ)
    (hc : ∀ q, rows.contains q = rows'.contains q) (ht : ∀ q c, rows.target? q c = rows'.target? q c) :
    failure? initial rows finals alphabet = failure? initial rows' finals alphabet := by
  have htotal : (∀ row ∈ rows.values, ∀ c ∈ alphabet, row.contains c = true) ↔
      ∀ row ∈ rows'.values, ∀ c ∈ alphabet, row.contains c = true := by
    rw [total_iff, total_iff]; simp only [hc, ht]
  have hclosed : (∀ t ∈ rows.targets, rows.contains t = true) ↔
      ∀ t ∈ rows'.targets, rows'.contains t = true := by
    rw [closed_iff, closed_iff]; simp only [hc, ht]
  have hlacks : (rows.values.any fun row => alphabet.any fun c => !row.contains c) =
      rows'.values.any fun row => alphabet.any fun c => !row.contains c := by
    rw [Bool.eq_iff_iff, ← Decidable.not_iff_not]; simpa using htotal
  have hdangles : (rows.targets.any fun t => !rows.contains t) =
      rows'.targets.any fun t => !rows'.contains t := by
    rw [Bool.eq_iff_iff, ← Decidable.not_iff_not]; simpa using hclosed
  rw [failure?, failure?, hc, hlacks, hdangles]

end

end

end Acceptor
