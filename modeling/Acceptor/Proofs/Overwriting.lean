import Acceptor.Proofs.OrderedMap
import Acceptor.State
import Mathlib.Data.List.Sort

/-!
# Writes to a state, one after the other

A map that is written to lists each key once, at the place of the first write to it and with the value of the last
one (`Overwrites`); there is one such list only, and each write extends it as an insertion does (`Overwrites.insert`).
The edges of a state are such a map, so what a state shows after any additions is that list, and two states are equal
if they have the same target for every symbol (`addAll_overwrites`).
-/

namespace Acceptor

namespace OrderedMap

variable {κ α : Type} [BEq κ] {writes entries : List (κ × α)} {j k : κ} {u v : α}

/-- Where the first write to `k` stands. -/
def firstWrite (writes : List (κ × α)) (k : κ) : Nat := (writes.map (·.1)).idxOf k

/-- `v` is what the last write to `k` writes. -/
def LastWrite (writes : List (κ × α)) (k : κ) (v : α) : Prop :=
  ∃ before after, writes = before ++ (k, v) :: after ∧ ∀ e ∈ after, e.1 ≠ k

/-- The entries have each key that is written to once, in the order of the first writes and with the values of the
last ones. -/
structure Overwrites (writes entries : List (κ × α)) : Prop where
  order : (entries.map (·.1)).Pairwise fun j k => firstWrite writes j < firstWrite writes k
  mem_iff : ∀ k v, (k, v) ∈ entries ↔ LastWrite writes k v

theorem Overwrites.unique {entries' : List (κ × α)} (h : Overwrites writes entries) (h' : Overwrites writes entries') :
    entries = entries' := by
  have hirrefl : Std.Irrefl fun e f : κ × α => firstWrite writes e.1 < firstWrite writes f.1 :=
    ⟨fun _ => Nat.lt_irrefl _⟩
  have hantisymm : Std.Antisymm fun e f : κ × α => firstWrite writes e.1 < firstWrite writes f.1 :=
    ⟨fun _ _ hlt hgt => absurd hgt (Nat.lt_asymm hlt)⟩
  have horder := List.pairwise_map.1 h.order
  have horder' := List.pairwise_map.1 h'.order
  exact horder.eq_of_mem_iff horder' fun e => (h.mem_iff e.1 e.2).trans (h'.mem_iff e.1 e.2).symm

variable [LawfulBEq κ]

theorem firstWrite_concat_of_mem (hj : j ∈ writes.map (·.1)) (e : κ × α) :
    firstWrite (writes ++ [e]) j = firstWrite writes j := by
  rw [firstWrite, List.map_append, List.idxOf_append_of_mem hj]; rfl

theorem firstWrite_concat_self (hk : k ∉ writes.map (·.1)) (v : α) :
    firstWrite (writes ++ [(k, v)]) k = writes.length := by
  rw [firstWrite, List.map_append, List.idxOf_append_of_notMem hk, List.length_map, List.map_singleton,
    List.idxOf_cons_self, Nat.add_zero]

theorem lastWrite_iff : LastWrite writes k v ↔ writes.reverse.lookup k = some v := by
  rw [List.lookup_eq_some_iff]
  constructor
  · rintro ⟨before, after, rfl, hafter⟩
    refine ⟨after.reverse, before.reverse, by simp, fun e he => bne_iff_ne.2 fun heq => ?_⟩
    exact hafter e (List.mem_reverse.1 he) heq.symm
  · rintro ⟨after, before, hw, hafter⟩
    refine ⟨before.reverse, after.reverse, by rw [← List.reverse_inj, hw]; simp, fun e he heq => ?_⟩
    exact bne_iff_ne.1 (hafter e (List.mem_reverse.1 he)) heq.symm

theorem lastWrite_concat :
    LastWrite (writes ++ [(k, v)]) j u ↔ if k == j then v = u else LastWrite writes j u := by
  rw [lastWrite_iff, lastWrite_iff, List.reverse_append, List.reverse_singleton, List.singleton_append,
    List.lookup_cons, BEq.comm]
  cases k == j <;> simp

theorem exists_lastWrite_iff : (∃ v, LastWrite writes k v) ↔ k ∈ writes.map (·.1) := by
  simp only [lastWrite_iff]
  rw [← Option.isSome_iff_exists, List.lookup_isSome_iff]
  simp only [List.mem_reverse, beq_iff_eq, List.mem_map]
  exact exists_congr fun _ => and_congr_right fun _ => eq_comm

theorem Overwrites.mem_keys_iff (h : Overwrites writes entries) :
    k ∈ entries.map (·.1) ↔ k ∈ writes.map (·.1) := by
  have hlast : k ∈ entries.map (·.1) ↔ ∃ v, LastWrite writes k v := by
    simp only [← h.mem_iff, List.mem_map, Prod.exists, exists_and_right, exists_eq_right]
  exact hlast.trans exists_lastWrite_iff

/-- One more write is one more insertion. -/
theorem Overwrites.insert {m : OrderedMap κ α} (h : Overwrites writes m.entries) (k : κ) (v : α) :
    Overwrites (writes ++ [(k, v)]) (m.insert k v).entries := by
  constructor
  · have hsame : m.keys.Pairwise fun i j => firstWrite (writes ++ [(k, v)]) i < firstWrite (writes ++ [(k, v)]) j := by
      refine List.Pairwise.imp_of_mem (fun hi hj hlt => ?_) h.order
      rwa [firstWrite_concat_of_mem (h.mem_keys_iff.1 hi), firstWrite_concat_of_mem (h.mem_keys_iff.1 hj)]
    show (m.insert k v).keys.Pairwise _
    rw [keys_insert]
    split
    · exact hsame
    · next habsent =>
      -- the new key comes last, and its first write is the one behind all others
      have hk : k ∉ writes.map (·.1) := fun hk => habsent (OrderedMap.mem_keys_iff.1 (h.mem_keys_iff.2 hk))
      refine List.pairwise_append.2 ⟨hsame, List.pairwise_singleton _ _, fun j hj i hi => ?_⟩
      have hj : j ∈ writes.map (·.1) := h.mem_keys_iff.1 hj
      rw [List.mem_singleton.1 hi, firstWrite_concat_of_mem hj, firstWrite_concat_self hk, ← List.length_map (·.1)]
      exact List.idxOf_lt_length_of_mem hj
  · intro j u
    rw [mem_entries_iff, find?_insert, lastWrite_concat, ← h.mem_iff, mem_entries_iff]
    split
    · exact Option.some_inj
    · rfl

theorem Overwrites.foldl_insert {m : OrderedMap κ α} (h : Overwrites writes m.entries) (more : List (κ × α)) :
    Overwrites (writes ++ more) (more.foldl (fun m e => m.insert e.1 e.2) m).entries := by
  induction more generalizing writes m with
  | nil => rw [List.append_nil]; exact h
  | cons e more ih => rw [List.append_cons]; exact ih (h.insert e.1 e.2)

theorem overwrites_ofList (writes : List (κ × α)) : Overwrites writes (ofList writes).entries := by
  have hnil : Overwrites ([] : List (κ × α)) (empty : OrderedMap κ α).entries :=
    ⟨.nil, fun k v => iff_of_false List.not_mem_nil fun ⟨_, _, hw, _⟩ => by simp at hw⟩
  exact hnil.foldl_insert writes

end OrderedMap

theorem Value.text_beq_text (s t : String) : (Value.text s == Value.text t) = (s == t) := by
  rw [Bool.eq_iff_iff, beq_iff, beq_iff_eq]; simp [atoms]

namespace State

variable {m n : OrderedMap String Int}

/-- The state with these edges. -/
def ofEdges (m : OrderedMap String Int) : State := ⟨m.rename Value.text_beq_text Value.int⟩

/-- Adds edges one after the other. -/
def addAll (s : State) (edges : List (String × Int)) : Except Fault State :=
  edges.foldlM (fun s e => s.addTransition (.text e.1) (.int e.2)) s

theorem addTransition_ofEdges (m : OrderedMap String Int) (symbol : String) (target : Int) :
    (ofEdges m).addTransition (.text symbol) (.int target) = .ok (ofEdges (m.insert symbol target)) := by
  show Except.ok (State.insert (ofEdges m) (.text symbol) (.int target)) = _
  rw [State.insert, ofEdges, ofEdges, OrderedMap.rename_insert]

theorem addAll_ofEdges (m : OrderedMap String Int) (edges : List (String × Int)) :
    (ofEdges m).addAll edges = .ok (ofEdges (edges.foldl (fun m e => m.insert e.1 e.2) m)) := by
  induction edges generalizing m with
  | nil => rfl
  | cons e edges ih =>
    rw [addAll, List.foldlM_cons, addTransition_ofEdges]
    exact ih (m.insert e.1 e.2)

theorem addAll_empty (edges : List (String × Int)) : empty.addAll edges = .ok (ofEdges (.ofList edges)) :=
  addAll_ofEdges ∅ edges

theorem entries_ofEdges (m : OrderedMap String Int) :
    (ofEdges m).edges.entries = m.entries.map fun e => (.text e.1, .int e.2) :=
  OrderedMap.entries_rename Value.text_beq_text Value.int m

theorem target?_ofEdges (m : OrderedMap String Int) (symbol : String) :
    (ofEdges m).target? (.text symbol) = .ok ((m.find? symbol).map .int) :=
  congrArg Except.ok (OrderedMap.find?_rename Value.text_beq_text Value.int m symbol)

theorem ofEdges_beq_iff : (ofEdges m == ofEdges n) = true ↔
    ∀ symbol, (ofEdges m).target? (.text symbol) = (ofEdges n).target? (.text symbol) := by
  show ((ofEdges m).edges == (ofEdges n).edges) = true ↔ _
  rw [ofEdges, ofEdges, OrderedMap.beq_rename _ _ Value.int_beq_int, OrderedMap.beq_iff]
  refine forall_congr' fun symbol => ?_
  have hint : Function.Injective Value.int := fun _ _ h => Value.int.inj h
  rw [← ofEdges, ← ofEdges, target?_ofEdges, target?_ofEdges, Except.ok.injEq, (Option.map_injective hint).eq_iff]

/-- A state to which edges are added lists each symbol once, at the place where it first came and with the target that
came last; and nothing but the targets of the symbols tells whether two such states are equal. -/
theorem addAll_overwrites (edges : List (String × Int)) :
    ∃ s, empty.addAll edges = .ok s ∧ (∃! listing, OrderedMap.Overwrites edges listing) ∧
      (∀ listing, OrderedMap.Overwrites edges listing →
        s.edges.entries = listing.map (fun e => (.text e.1, .int e.2)) ∧
        (∀ symbol, s.target? (.text symbol) = .ok ((listing.lookup symbol).map .int)) ∧
        s.symbols = listing.map (fun e => .text e.1) ∧ s.size = listing.length) ∧
      ∀ others t, empty.addAll others = .ok t →
        ((s == t) = true ↔ ∀ symbol, s.target? (.text symbol) = t.target? (.text symbol)) := by
  have hlisting := OrderedMap.overwrites_ofList edges
  refine ⟨_, addAll_empty edges, ⟨_, hlisting, fun _ h => h.unique hlisting⟩, fun listing h => ?_,
    fun others t ht => ?_⟩
  · obtain rfl := h.unique hlisting
    have hentries := entries_ofEdges (.ofList edges)
    refine ⟨hentries, fun symbol => ?_, ?_, ?_⟩
    · rw [target?_ofEdges, OrderedMap.find?_eq_lookup]
    · rw [symbols, OrderedMap.keys, hentries, List.map_map]; rfl
    · rw [size, OrderedMap.size, hentries, List.length_map]
  · rw [addAll_empty] at ht
    cases ht
    exact ofEdges_beq_iff

/-- A symbol that keeps its place when it is overwritten, a listing in another order, and another last target. -/
theorem addAll_overwrites_orders :
    ∃ s t u, empty.addAll [("b", 1), ("a", 2), ("b", 3)] = .ok s ∧ empty.addAll [("a", 2), ("b", 3)] = .ok t ∧
      empty.addAll [("b", 3), ("a", 2), ("b", 1)] = .ok u ∧
      s.edges.entries = [(.text "b", .int 3), (.text "a", .int 2)] ∧
      t.edges.entries = [(.text "a", .int 2), (.text "b", .int 3)] ∧
      s.target? (.text "b") = .ok (some (.int 3)) ∧ s.target? (.text "c") = .ok none ∧ s.size = 2 ∧
      (s == t) = true ∧ (s == u) = false := by
  obtain ⟨s, hs, -, hshown, hequal⟩ := addAll_overwrites [("b", 1), ("a", 2), ("b", 3)]
  obtain ⟨t, ht, -, hshown', -⟩ := addAll_overwrites [("a", 2), ("b", 3)]
  obtain ⟨u, hu, -, hshown'', -⟩ := addAll_overwrites [("b", 3), ("a", 2), ("b", 1)]
  obtain ⟨hentries, htarget, -, hsize⟩ := hshown [("b", 3), ("a", 2)] (OrderedMap.overwrites_ofList _)
  obtain ⟨hentries', htarget', -, -⟩ := hshown' [("a", 2), ("b", 3)] (OrderedMap.overwrites_ofList _)
  obtain ⟨-, htarget'', -, -⟩ := hshown'' [("b", 1), ("a", 2)] (OrderedMap.overwrites_ofList _)
  have hsame (symbol : String) :
      [("b", (3 : Int)), ("a", 2)].lookup symbol = [("a", (2 : Int)), ("b", 3)].lookup symbol := by
    by_cases h : symbol = "a"
    · rw [h]; rfl
    · simp [List.lookup_cons, beq_false_of_ne h]
  refine ⟨s, t, u, hs, ht, hu, hentries, hentries', htarget "b", htarget "c", hsize,
    (hequal _ t ht).2 fun symbol => by rw [htarget, htarget', hsame], Bool.eq_false_iff.2 fun heq => ?_⟩
  have hb := (hequal _ u hu).1 heq "b"
  rw [htarget, htarget''] at hb
  cases hb

end State

end Acceptor
