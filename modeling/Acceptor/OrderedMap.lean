/-!
# Maps in order of first arrival

`OrderedMap κ α` lists each key once, in the order in which the keys first arrived. `insert` on a key
that is present replaces its value and moves nothing; a new key goes to the end. Keys are compared
by `==`, which need not be equality: the key that came first stays.
-/

namespace Acceptor

structure OrderedMap (κ α : Type) [BEq κ] where
  entries : List (κ × α)
  distinct : entries.Pairwise fun e f => (e.1 == f.1) = false

namespace OrderedMap

variable {κ α β : Type} [BEq κ]

def empty : OrderedMap κ α := ⟨[], .nil⟩

instance : EmptyCollection (OrderedMap κ α) := ⟨empty⟩

def keys (m : OrderedMap κ α) : List κ := m.entries.map (·.1)

def values (m : OrderedMap κ α) : List α := m.entries.map (·.2)

def size (m : OrderedMap κ α) : Nat := m.entries.length

def find? (m : OrderedMap κ α) (k : κ) : Option α :=
  (m.entries.find? fun e => e.1 == k).map (·.2)

def contains (m : OrderedMap κ α) (k : κ) : Bool := m.entries.any fun e => e.1 == k

/-- Replaces the value at `k`, or appends it. -/
def put (k : κ) (v : α) : List (κ × α) → List (κ × α)
  | [] => [(k, v)]
  | e :: rest => if e.1 == k then (e.1, v) :: rest else e :: put k v rest

theorem key_mem_put {k : κ} {v : α} {entries : List (κ × α)} {e : κ × α} (h : e ∈ put k v entries) :
    e.1 = k ∨ ∃ f ∈ entries, f.1 = e.1 := by
  induction entries with
  | nil => simp only [put, List.mem_singleton] at h; exact .inl (by rw [h])
  | cons f rest ih =>
    rw [put] at h; split at h
    · rcases List.mem_cons.1 h with rfl | h
      · exact .inr ⟨f, List.mem_cons_self, rfl⟩
      · exact .inr ⟨e, List.mem_cons_of_mem _ h, rfl⟩
    · rcases List.mem_cons.1 h with rfl | h
      · exact .inr ⟨e, List.mem_cons_self, rfl⟩
      · exact (ih h).imp_right fun ⟨g, hg, he⟩ => ⟨g, List.mem_cons_of_mem _ hg, he⟩

theorem value_mem_put {k : κ} {v : α} {entries : List (κ × α)} {e : κ × α}
    (h : e ∈ put k v entries) : e.2 = v ∨ ∃ f ∈ entries, f.2 = e.2 := by
  induction entries with
  | nil => simp only [put, List.mem_singleton] at h; exact .inl (by rw [h])
  | cons f rest ih =>
    rw [put] at h; split at h
    · rcases List.mem_cons.1 h with rfl | h
      · exact .inl rfl
      · exact .inr ⟨e, List.mem_cons_of_mem _ h, rfl⟩
    · rcases List.mem_cons.1 h with rfl | h
      · exact .inr ⟨e, List.mem_cons_self, rfl⟩
      · exact (ih h).imp_right fun ⟨g, hg, he⟩ => ⟨g, List.mem_cons_of_mem _ hg, he⟩

theorem distinct_put {entries : List (κ × α)}
    (h : entries.Pairwise fun e f => (e.1 == f.1) = false) (k : κ) (v : α) :
    (put k v entries).Pairwise fun e f => (e.1 == f.1) = false := by
  induction entries with
  | nil => exact List.pairwise_singleton _ _
  | cons e rest ih =>
    rw [List.pairwise_cons] at h
    rw [put]; split
    · exact List.pairwise_cons.2 ⟨h.1, h.2⟩
    · next hk =>
      refine List.pairwise_cons.2 ⟨fun f hf => ?_, ih h.2⟩
      rcases key_mem_put hf with hf | ⟨g, hg, hf⟩
      · rw [hf]; exact Bool.eq_false_iff.2 hk
      · rw [← hf]; exact h.1 g hg

def insert (m : OrderedMap κ α) (k : κ) (v : α) : OrderedMap κ α :=
  ⟨put k v m.entries, distinct_put m.distinct k v⟩

/-- The entries are inserted from left to right, so the last value of a key wins. -/
def ofList (entries : List (κ × α)) : OrderedMap κ α :=
  entries.foldl (fun m e => m.insert e.1 e.2) empty

theorem mem_entries_foldl_insert {entries : List (κ × α)} {m : OrderedMap κ α} {e : κ × α}
    (h : e ∈ (entries.foldl (fun m e => m.insert e.1 e.2) m).entries) :
    (∃ f ∈ entries ++ m.entries, f.1 = e.1) ∧ ∃ f ∈ entries ++ m.entries, f.2 = e.2 := by
  induction entries generalizing m with
  | nil => exact ⟨⟨e, h, rfl⟩, e, h, rfl⟩
  | cons g rest ih =>
    obtain ⟨⟨f, hf, hk⟩, f', hf', hv⟩ := ih h
    rw [List.cons_append]
    constructor
    · rcases List.mem_append.1 hf with hf | hf
      · exact ⟨f, List.mem_cons_of_mem _ (List.mem_append_left _ hf), hk⟩
      · rcases key_mem_put hf with h | ⟨f₁, h₁, h₂⟩
        · exact ⟨g, List.mem_cons_self, h.symm.trans hk⟩
        · exact ⟨f₁, List.mem_cons_of_mem _ (List.mem_append_right _ h₁), h₂.trans hk⟩
    · rcases List.mem_append.1 hf' with hf | hf
      · exact ⟨f', List.mem_cons_of_mem _ (List.mem_append_left _ hf), hv⟩
      · rcases value_mem_put hf with h | ⟨f₁, h₁, h₂⟩
        · exact ⟨g, List.mem_cons_self, h.symm.trans hv⟩
        · exact ⟨f₁, List.mem_cons_of_mem _ (List.mem_append_right _ h₁), h₂.trans hv⟩

theorem mem_of_mem_keys_ofList {entries : List (κ × α)} {k : κ} (h : k ∈ (ofList entries).keys) :
    ∃ e ∈ entries, e.1 = k := by
  obtain ⟨e, he, rfl⟩ := List.mem_map.1 h
  obtain ⟨f, hf, hk⟩ := (mem_entries_foldl_insert he).1
  exact ⟨f, by simpa [empty] using hf, hk⟩

theorem mem_of_mem_values_ofList {entries : List (κ × α)} {v : α} (h : v ∈ (ofList entries).values) :
    ∃ e ∈ entries, e.2 = v := by
  obtain ⟨e, he, rfl⟩ := List.mem_map.1 h
  obtain ⟨f, hf, hv⟩ := (mem_entries_foldl_insert he).2
  exact ⟨f, by simpa [empty] using hf, hv⟩

def map (f : α → β) (m : OrderedMap κ α) : OrderedMap κ β :=
  ⟨m.entries.map fun e => (e.1, f e.2), List.pairwise_map.2 m.distinct⟩

/-- Renames the keys by a function that keeps different keys different. -/
def mapKeys {κ' : Type} [BEq κ'] (f : κ → κ') (hf : ∀ a b, (f a == f b) = (a == b))
    (m : OrderedMap κ α) : OrderedMap κ' α :=
  ⟨m.entries.map fun e => (f e.1, e.2), List.pairwise_map.2 (m.distinct.imp fun h => by rw [hf]; exact h)⟩

theorem contains_map (f : α → β) (m : OrderedMap κ α) (k : κ) : (m.map f).contains k = m.contains k := by
  simp [contains, map, Function.comp_def]

section

variable {κ' : Type} [BEq κ'] {f : κ → κ'} (hf : ∀ a b, (f a == f b) = (a == b)) (m : OrderedMap κ α)

theorem keys_mapKeys : (m.mapKeys f hf).keys = m.keys.map f := by simp [keys, mapKeys, Function.comp_def]

theorem values_mapKeys : (m.mapKeys f hf).values = m.values := by simp [values, mapKeys, Function.comp_def]

theorem contains_mapKeys (k : κ) : (m.mapKeys f hf).contains (f k) = m.contains k := by
  simp [contains, mapKeys, Function.comp_def, hf]

end

/-- The two maps have the same keys with the same values, in whatever order. -/
def same [BEq α] (m n : OrderedMap κ α) : Bool :=
  m.size == n.size && m.entries.all fun e => n.find? e.1 == some e.2

instance [BEq α] : BEq (OrderedMap κ α) := ⟨same⟩

end OrderedMap

end Acceptor
