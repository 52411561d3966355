import Acceptor.OrderedMap
import Mathlib.Data.List.Perm.Subperm

/-!
# Laws of ordered maps

What `insert` and `rename` do to `find?` and `contains`, and that a map is the one its own entries build
(`ofList_entries`). With keys that are compared by equality, the entries are the pairs that `find?`
finds (`mem_entries_iff`), and two maps are found equal just when `find?` cannot tell them apart (`beq_iff`).
-/

namespace Acceptor.OrderedMap

variable {κ α β : Type} [BEq κ]

theorem ext {m n : OrderedMap κ α} (h : m.entries = n.entries) : m = n := by
  cases m; cases n; cases h; rfl

@[simp] theorem entries_insert (m : OrderedMap κ α) (k : κ) (v : α) :
    (m.insert k v).entries = put k v m.entries := rfl

theorem isSome_find? (m : OrderedMap κ α) (k : κ) : (m.find? k).isSome = m.contains k := by
  rw [find?, Option.isSome_map, List.isSome_find?]; rfl

theorem contains_iff {m : OrderedMap κ α} {k : κ} : m.contains k = true ↔ ∃ v, m.find? k = some v := by
  rw [← isSome_find?, Option.isSome_iff_exists]

section

variable {κ' : Type} [BEq κ'] {g : κ → κ'} (hg : ∀ a b, (g a == g b) = (a == b)) (f : α → β)

/-- The map with its keys renamed by `g`, which keeps different keys different, and its values by
`f`. -/
def rename (m : OrderedMap κ α) : OrderedMap κ' β := (m.map f).mapKeys g hg

@[simp] theorem entries_rename (m : OrderedMap κ α) :
    (m.rename hg f).entries = m.entries.map fun e => (g e.1, f e.2) := by
  simp [rename, map, mapKeys]

theorem mapKeys_eq_rename (m : OrderedMap κ α) : m.mapKeys g hg = m.rename hg id :=
  ext (by rw [entries_rename]; rfl)

theorem map_eq_rename (m : OrderedMap κ α) : m.map f = m.rename (g := id) (fun _ _ => rfl) f :=
  ext (by rw [entries_rename]; rfl)

theorem keys_rename (m : OrderedMap κ α) : (m.rename hg f).keys = m.keys.map g := by simp [keys]

theorem values_rename (m : OrderedMap κ α) : (m.rename hg f).values = m.values.map f := by simp [values]

theorem find?_rename (m : OrderedMap κ α) (k : κ) : (m.rename hg f).find? (g k) = (m.find? k).map f := by
  simp [find?, List.find?_map, Function.comp_def, hg]

theorem contains_rename (m : OrderedMap κ α) (k : κ) : (m.rename hg f).contains (g k) = m.contains k := by
  rw [← isSome_find?, find?_rename, Option.isSome_map, isSome_find?]

include hg in
theorem put_rename (k : κ) (v : α) (entries : List (κ × α)) :
    put (g k) (f v) (entries.map fun e => (g e.1, f e.2)) =
      (put k v entries).map fun e => (g e.1, f e.2) := by
  induction entries with
  | nil => rfl
  | cons e rest ih =>
    rw [List.map_cons, put, put, hg]
    split
    · rfl
    · rw [ih]; rfl

theorem size_rename (m : OrderedMap κ α) : (m.rename hg f).size = m.size := by
  rw [size, entries_rename, List.length_map]; rfl

/-- Renamed maps are equal if the maps are, where the values are renamed as strictly as the keys. -/
theorem beq_rename [BEq α] [BEq β] (hf : ∀ u v, (f u == f v) = (u == v)) (m n : OrderedMap κ α) :
    (m.rename hg f == n.rename hg f) = (m == n) := by
  show same _ _ = same _ _
  rw [same, same, size_rename, size_rename, entries_rename, List.all_map]
  refine congrArg _ (List.all_congr rfl fun e => ?_)
  show ((n.rename hg f).find? (g e.1) == some (f e.2)) = (n.find? e.1 == some e.2)
  rw [find?_rename]
  cases n.find? e.1 with
  | none => rfl
  | some v => exact hf v e.2

theorem rename_insert (m : OrderedMap κ α) (k : κ) (v : α) :
    (m.insert k v).rename hg f = (m.rename hg f).insert (g k) (f v) := by
  apply ext
  rw [entries_rename, entries_insert, ← put_rename hg, entries_insert, entries_rename]

end

theorem put_of_absent {k : κ} (v : α) {entries : List (κ × α)} (h : ∀ e ∈ entries, (e.1 == k) = false) :
    put k v entries = entries ++ [(k, v)] := by
  induction entries with
  | nil => rfl
  | cons e rest ih =>
    rw [put, h e List.mem_cons_self, if_neg Bool.false_ne_true,
      ih fun e he => h e (List.mem_cons_of_mem _ he), List.cons_append]

theorem keys_prefix_put (k : κ) (v : α) (entries : List (κ × α)) :
    entries.map (·.1) <+: (put k v entries).map (·.1) := by
  induction entries with
  | nil => exact List.nil_prefix
  | cons e rest ih =>
    rw [put]; split
    · exact List.prefix_rfl
    · exact (List.prefix_cons_inj e.1).2 ih

theorem keys_put_of_present {k : κ} {entries : List (κ × α)} (h : entries.any (·.1 == k) = true) (v : α) :
    (put k v entries).map (·.1) = entries.map (·.1) := by
  induction entries with
  | nil => cases h
  | cons e rest ih =>
    rw [put]; split
    · rfl
    · next hk =>
      rw [List.any_cons, Bool.eq_false_iff.2 hk] at h
      rw [List.map_cons, ih h]; rfl

theorem keys_insert (m : OrderedMap κ α) (k : κ) (v : α) :
    (m.insert k v).keys = if m.contains k then m.keys else m.keys ++ [k] := by
  show (put k v m.entries).map (·.1) = _
  split
  · next h => exact keys_put_of_present h v
  · next h =>
    have habsent : ∀ e ∈ m.entries, (e.1 == k) = false := by simpa [contains] using h
    rw [put_of_absent v habsent, List.map_append]; rfl

/-- Keys keep their places, and a new one comes last. -/
theorem keys_prefix_insert (m : OrderedMap κ α) (k : κ) (v : α) : m.keys <+: (m.insert k v).keys :=
  keys_prefix_put k v m.entries

/-- Entries with distinct keys are inserted one behind the other. -/
theorem entries_foldl_insert {entries : List (κ × α)} {m : OrderedMap κ α}
    (h : (m.entries ++ entries).Pairwise fun e f => (e.1 == f.1) = false) :
    (entries.foldl (fun m e => m.insert e.1 e.2) m).entries = m.entries ++ entries := by
  induction entries generalizing m with
  | nil => rw [List.foldl_nil, List.append_nil]
  | cons e rest ih =>
    have he : (m.insert e.1 e.2).entries = m.entries ++ [e] :=
      put_of_absent e.2 fun f hf => (List.pairwise_append.1 h).2.2 f hf e List.mem_cons_self
    rw [List.foldl_cons, ih (by rw [he, List.append_assoc]; exact h), he, List.append_assoc]; rfl

theorem entries_ofList {entries : List (κ × α)} (h : entries.Pairwise fun e f => (e.1 == f.1) = false) :
    (ofList entries).entries = entries :=
  entries_foldl_insert (m := empty) h

@[simp] theorem ofList_entries (m : OrderedMap κ α) : ofList m.entries = m :=
  ext (entries_ofList m.distinct)

/-- A map with renamed entries is the map of those entries, renamed. -/
theorem eq_rename_ofList {κ' : Type} [BEq κ'] {g : κ → κ'} (hg : ∀ a b, (g a == g b) = (a == b)) {f : α → β}
    {m : OrderedMap κ' β} {entries : List (κ × α)} (h : m.entries = entries.map fun e => (g e.1, f e.2)) :
    m = (ofList entries).rename hg f := by
  have hd : entries.Pairwise fun e f => (e.1 == f.1) = false := by
    have hm := m.distinct
    rw [h, List.pairwise_map] at hm
    exact hm.imp fun hab => by rwa [hg] at hab
  apply ext
  rw [entries_rename, entries_ofList hd, h]

theorem put_of_find? {k : κ} {v : α} {entries : List (κ × α)}
    (h : (entries.find? fun e => e.1 == k).map (·.2) = some v) : put k v entries = entries := by
  induction entries with
  | nil => cases h
  | cons e rest ih =>
    rw [List.find?_cons] at h
    rw [put]
    cases hk : e.1 == k with
    | true =>
      rw [hk] at h
      cases h; rfl
    | false =>
      rw [hk] at h
      rw [if_neg Bool.false_ne_true, ih h]

theorem insert_of_find? {m : OrderedMap κ α} {k : κ} {v : α} (h : m.find? k = some v) : m.insert k v = m :=
  ext (put_of_find? h)

section

variable [EquivBEq κ]

theorem find?_put (k j : κ) (v : α) (entries : List (κ × α)) :
    ((put k v entries).find? fun e => e.1 == j).map (·.2) =
      if k == j then some v else (entries.find? fun e => e.1 == j).map (·.2) := by
  induction entries with
  | nil => rw [put, List.find?_cons]; cases h : k == j <;> simp
  | cons e rest ih =>
    -- where `k` has its entry, `j` is either the same key or passes it by
    rw [put]; split
    · next hk =>
      have hj : (e.1 == j) = (k == j) := BEq.congr_left hk
      rw [List.find?_cons, List.find?_cons, hj]
      cases k == j <;> rfl
    · next hk =>
      rw [List.find?_cons, List.find?_cons]
      cases he : e.1 == j with
      | true =>
        have hkj : (k == j) = false := Bool.eq_false_iff.2 fun h => hk (BEq.trans he (BEq.symm h))
        rw [hkj]; rfl
      | false => exact ih

theorem find?_insert (m : OrderedMap κ α) (k j : κ) (v : α) :
    (m.insert k v).find? j = if k == j then some v else m.find? j :=
  find?_put k j v m.entries

theorem contains_insert (m : OrderedMap κ α) (k j : κ) (v : α) :
    (m.insert k v).contains j = (k == j || m.contains j) := by
  rw [← isSome_find?, find?_insert, ← isSome_find?]
  cases k == j <;> rfl

theorem put_put (k : κ) (u v : α) (entries : List (κ × α)) : put k v (put k u entries) = put k v entries := by
  induction entries with
  | nil => simp [put]
  | cons e rest ih =>
    rw [put, put]; split
    · next hk => rw [put, if_pos hk]
    · next hk => rw [put, if_neg hk, ih]

/-- The value that was inserted last is the one that counts. -/
theorem insert_insert (m : OrderedMap κ α) (k : κ) (u v : α) : (m.insert k u).insert k v = m.insert k v :=
  ext (put_put k u v m.entries)

theorem find?_eq_lookup (m : OrderedMap κ α) (k : κ) : m.find? k = m.entries.lookup k := by
  rw [find?]
  induction m.entries with
  | nil => rfl
  | cons e rest ih =>
    rw [List.find?_cons, List.lookup_cons, ← ih, BEq.comm]
    cases k == e.1 <;> rfl

theorem find?_congr {m : OrderedMap κ α} {i j : κ} (h : (i == j) = true) : m.find? i = m.find? j := by
  simp only [find?, fun e : κ × α => BEq.congr_right (a := e.1) h]

end

/-- Maps that are the same before their keys are renamed are the same at every key afterwards, also at one
that is no new name. -/
theorem find?_rename_congr {κ' : Type} [BEq κ'] [EquivBEq κ'] {g : κ → κ'}
    (hg : ∀ a b, (g a == g b) = (a == b)) (f : α → β) {m n : OrderedMap κ α} (h : ∀ k, m.find? k = n.find? k)
    (j : κ') : (m.rename hg f).find? j = (n.rename hg f).find? j := by
  by_cases hj : ∃ k, (g k == j) = true
  · obtain ⟨k, hk⟩ := hj
    rw [← find?_congr hk, ← find?_congr hk, find?_rename, find?_rename, h]
  · have hnone : ∀ m : OrderedMap κ α, (m.rename hg f).find? j = none := fun m => by
      rw [find?, entries_rename, Option.map_eq_none_iff, List.find?_eq_none]
      intro e he hk
      obtain ⟨e, -, rfl⟩ := List.mem_map.1 he
      exact hj ⟨e.1, hk⟩
    rw [hnone, hnone]

section

variable [LawfulBEq κ]

theorem mem_entries_iff {m : OrderedMap κ α} {k : κ} {v : α} :
    (k, v) ∈ m.entries ↔ m.find? k = some v := by
  constructor
  · intro h
    obtain ⟨before, after, hm⟩ := List.append_of_mem h
    have hd := m.distinct
    rw [hm, List.pairwise_append] at hd
    have hk : ∀ e ∈ before, ¬ (e.1 == k) = true := fun e he =>
      Bool.eq_false_iff.1 (hd.2.2 e he (k, v) List.mem_cons_self)
    simp [find?, hm, List.find?_append, List.find?_eq_none.2 hk]
  · intro h
    obtain ⟨e, he, hv⟩ := Option.map_eq_some_iff.1 h
    have hk : e.1 = k := by simpa using List.find?_some he
    subst hk hv; exact List.mem_of_find?_eq_some he

/-- In a map that is made from entries with different keys, a key has the value of its entry. -/
theorem find?_ofList_iff {entries : List (κ × α)} (h : (entries.map (·.1)).Nodup) {k : κ} {v : α} :
    (ofList entries).find? k = some v ↔ (k, v) ∈ entries := by
  have hd : entries.Pairwise fun e f => (e.1 == f.1) = false :=
    (List.pairwise_map.1 h).imp fun hne => beq_false_of_ne hne
  rw [← mem_entries_iff, entries_ofList hd]

theorem mem_keys_iff {m : OrderedMap κ α} {k : κ} : k ∈ m.keys ↔ m.contains k = true := by
  simp [keys, contains]

/-- The entries whose keys satisfy `p`. -/
def restrict (m : OrderedMap κ α) (p : κ → Bool) : OrderedMap κ α :=
  ⟨m.entries.filter fun e => p e.1, m.distinct.filter _⟩

theorem find?_restrict (m : OrderedMap κ α) (p : κ → Bool) (k : κ) :
    (m.restrict p).find? k = if p k then m.find? k else none := by
  ext v
  rw [← mem_entries_iff, restrict, List.mem_filter, mem_entries_iff]
  cases p k <;> simp

theorem contains_restrict (m : OrderedMap κ α) (p : κ → Bool) (k : κ) :
    (m.restrict p).contains k = (p k && m.contains k) := by
  rw [← isSome_find?, find?_restrict, ← isSome_find?]
  cases p k <;> rfl

theorem nodup_keys (m : OrderedMap κ α) : m.keys.Nodup :=
  List.pairwise_map.2 (m.distinct.imp fun h => ne_of_beq_false h)

/-- As many entries as there are different keys. -/
theorem size_eq_length {m : OrderedMap κ α} {l : List κ} (hl : l.Nodup) (h : ∀ k, k ∈ m.keys ↔ k ∈ l) :
    m.size = l.length := by
  have hperm : m.keys.Perm l := (List.perm_ext_iff_of_nodup m.nodup_keys hl).2 h
  rw [← hperm.length_eq, keys, List.length_map]; rfl

theorem beq_iff [BEq α] [LawfulBEq α] {m n : OrderedMap κ α} :
    (m == n) = true ↔ ∀ k, m.find? k = n.find? k := by
  have hsame : (m == n) = true ↔ m.size = n.size ∧ ∀ k v, m.find? k = some v → n.find? k = some v := by
    show same m n = true ↔ _
    simp only [same, Bool.and_eq_true, beq_iff_eq, List.all_eq_true, Prod.forall, mem_entries_iff]
  rw [hsame]
  constructor
  · rintro ⟨hsize, hfind⟩ k
    cases hm : m.find? k with
    | some v => exact (hfind k v hm).symm
    | none =>
      -- the keys of `m` are keys of `n`, and there are no more of these
      have hsubset : m.keys ⊆ n.keys := fun j hj => by
        obtain ⟨v, hv⟩ := contains_iff.1 (mem_keys_iff.1 hj)
        exact mem_keys_iff.2 (contains_iff.2 ⟨v, hfind j v hv⟩)
      have hlength : n.keys.length ≤ m.keys.length := by
        rw [keys, keys, List.length_map, List.length_map]; exact Nat.le_of_eq hsize.symm
      have hperm : m.keys.Perm n.keys := (List.subperm_of_subset m.nodup_keys hsubset).perm_of_length_le hlength
      have hk : k ∉ n.keys := fun hk => by
        obtain ⟨v, hv⟩ := contains_iff.1 (mem_keys_iff.1 (hperm.mem_iff.2 hk))
        rw [hm] at hv; cases hv
      rw [mem_keys_iff, ← isSome_find?, Option.not_isSome_iff_eq_none] at hk
      rw [hk]
  · intro h
    refine ⟨?_, fun k v hv => by rw [← h, hv]⟩
    have hsize : m.size = n.keys.length := size_eq_length n.nodup_keys fun k => by
      rw [mem_keys_iff, mem_keys_iff, ← isSome_find?, ← isSome_find?, h]
    rw [hsize, keys, List.length_map]; rfl

theorem mem_values_iff {m : OrderedMap κ α} {v : α} : v ∈ m.values ↔ ∃ k, m.find? k = some v := by
  simp only [values, List.mem_map, ← mem_entries_iff]
  constructor
  · rintro ⟨e, he, rfl⟩; exact ⟨e.1, he⟩
  · rintro ⟨k, h⟩; exact ⟨(k, v), h, rfl⟩

end

end Acceptor.OrderedMap
