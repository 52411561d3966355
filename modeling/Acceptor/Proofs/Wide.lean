import Acceptor.Files
import Acceptor.Proofs.Automaton
import Mathlib.Data.Set.List

/-!
# Automata with and without surrogates

An automaton over code points has a surrogate among its symbols, or it is the wide form of an `Automaton`
(`hasSurrogate_eq_false_iff`). Without one its text is that of the `Automaton`, in code points (`format_wide`), and has
bytes; with one there are none (`encodeAll_format_of_surrogate`).
-/

namespace Acceptor

open Text (CodePoint codePoints)

section

variable {α β : Type} [LT α] [DecidableLT α] [LT β] [DecidableLT β] {f : α → β}
  (hf : ∀ a b, f a < f b ↔ a < b)

include hf in
theorem insertOnce_map (a : α) (l : List α) : insertOnce (f a) (l.map f) = (insertOnce a l).map f := by
  induction l with
  | nil => rfl
  | cons b l ih =>
    rw [List.map_cons, insertOnce, insertOnce]
    simp only [hf, ih]
    split
    · rfl
    · split <;> rfl

include hf in
theorem ascending_map (l : List α) : ascending (l.map f) = (ascending l).map f := by
  induction l with
  | nil => rfl
  | cons a l ih =>
    show insertOnce (f a) (ascending (l.map f)) = (insertOnce a (ascending l)).map f
    rw [ih, insertOnce_map hf]

end

namespace Text

namespace CodePoint

theorem char_lt_char (a b : Char) : char a < char b ↔ a < b := Iff.rfl

theorem toNat_inj {a b : CodePoint} (h : a.toNat = b.toNat) : a = b := by
  -- no character lies where the surrogates are
  have hchar (c : Char) (n : Fin 0x800) : c.toNat ≠ 0xD800 + n := by
    have hvalid : c.toNat < 0xD800 ∨ 0xDFFF < c.toNat ∧ c.toNat < 0x110000 := c.valid
    have hn := n.isLt
    omega
  cases a with
  | char c =>
    cases b with
    | char d => rw [Char.toNat_inj.1 h]
    | surrogate n => exact absurd h (hchar c n)
  | surrogate m =>
    cases b with
    | char d => exact absurd h.symm (hchar d m)
    | surrogate n => rw [Fin.ext (Nat.add_left_cancel h)]

instance : Std.Trichotomous (α := CodePoint) (· < ·) where
  trichotomous _ _ hab hba := toNat_inj (Nat.le_antisymm (Nat.not_lt.1 hba) (Nat.not_lt.1 hab))

theorem eq_map_of_mapM_char? {s : List CodePoint} {cs : List Char} (h : s.mapM char? = some cs) : s = cs.map char := by
  induction s generalizing cs with
  | nil => cases h; rfl
  | cons a s ih =>
    simp only [List.mapM_cons, Option.bind_eq_bind, Option.bind_eq_some_iff, Option.pure_def, Option.some.injEq] at h
    obtain ⟨c, hc, ds, hds, rfl⟩ := h
    cases a with
    | char a => cases hc; rw [ih hds]; rfl
    | surrogate n => cases hc

theorem mapM_char?_map (cs : List Char) : (cs.map char).mapM char? = some cs := by
  induction cs with
  | nil => rfl
  | cons c cs ih => rw [List.map_cons, List.mapM_cons, ih]; rfl

end CodePoint

namespace Utf8

variable {s : List CodePoint}

theorem encodeAll_map_char (cs : List Char) : encodeAll (cs.map .char) = .ok (encode cs) := by
  rw [encodeAll, CodePoint.mapM_char?_map]

theorem encodeAll_of_surrogate {c : CodePoint} (hs : c ∈ s) (hc : c.isSurrogate = true) :
    encodeAll s = .error (surrogatesOf s) := by
  rw [encodeAll]
  cases h : s.mapM CodePoint.char? with
  | none => rfl
  | some cs =>
    rw [CodePoint.eq_map_of_mapM_char? h] at hs
    obtain ⟨d, -, rfl⟩ := List.mem_map.1 hs
    cases hc

end Utf8

end Text

namespace Rows

variable {rows : Rows Int Char}

theorem wide_eq_rename (rows : Rows Int Char) :
    rows.wide = rows.rename (f := id) (fun _ _ => rfl) char_beq_char := by
  simp only [wide, OrderedMap.map_eq_rename, OrderedMap.mapKeys_eq_rename]; rfl

theorem target?_wide (rows : Rows Int Char) (q : Int) (c : Char) :
    rows.wide.target? q (.char c) = rows.target? q c := by
  have htarget := target?_rename (f := id) (fun _ _ => rfl) char_beq_char rows q c
  rwa [← wide_eq_rename, Option.map_id] at htarget

theorem edges_wide (rows : Rows Int Char) :
    rows.wide.edges = rows.edges.map fun e => (e.1, CodePoint.char e.2.1, e.2.2) := by
  have hkeys : rows.wide.keys = rows.keys := by simp [wide, OrderedMap.keys, OrderedMap.map]
  have htarget (q : Int) (c : Char) : (rows.wide.find? q).bind (·.find? (.char c)) = _ := target?_wide rows q c
  simp only [edges, hkeys, symbols_wide, ascending_map CodePoint.char_lt_char, List.filterMap_map, List.map_flatMap,
    List.map_filterMap, Function.comp_def, htarget, Option.map_map]
  rfl

/-- Rows without surrogates have their symbols among the characters. -/
theorem exists_eq_wide {wide : Rows Int CodePoint} (h : ∀ c ∈ wide.symbols, c.isSurrogate = false) :
    ∃ rows : Rows Int Char, wide = rows.wide := by
  -- row by row, and entry by entry in a row
  have hentry : ∀ e ∈ wide.entries, e ∈ Set.range fun f : Int × OrderedMap Char Int =>
      (id f.1, f.2.rename char_beq_char id) := by
    intro e he
    have hkeys : ∀ k ∈ e.2.entries, k ∈ Set.range fun f : Char × Int => (CodePoint.char f.1, id f.2) := by
      intro k hk
      have hsymbol : k.1 ∈ wide.symbols :=
        List.mem_flatMap.2 ⟨e.2, List.mem_map_of_mem he, List.mem_map_of_mem hk⟩
      obtain ⟨c | n, t⟩ := k
      · exact ⟨(c, t), rfl⟩
      · cases h _ hsymbol
    obtain ⟨l, hl⟩ : e.2.entries ∈ Set.range (List.map fun f : Char × Int => (CodePoint.char f.1, id f.2)) := by
      rw [Set.range_list_map]; exact hkeys
    exact ⟨(e.1, .ofList l), Prod.ext rfl (OrderedMap.eq_rename_ofList char_beq_char hl.symm).symm⟩
  obtain ⟨l, hl⟩ : wide.entries ∈ Set.range (List.map fun f : Int × OrderedMap Char Int =>
      (id f.1, f.2.rename char_beq_char id)) := by
    rw [Set.range_list_map]; exact hentry
  refine ⟨.ofList l, ?_⟩
  rw [Rows.wide_eq_rename]
  exact OrderedMap.eq_rename_ofList _ hl.symm

theorem wide_injective : Function.Injective wide := by
  have hrow : Function.Injective fun row : OrderedMap Char Int => row.mapKeys CodePoint.char char_beq_char := by
    intro row row' h
    have hentry : Function.Injective fun e : Char × Int => (CodePoint.char e.1, e.2) := by
      rintro ⟨c, t⟩ ⟨c', t'⟩ h
      cases h; rfl
    exact OrderedMap.ext (List.map_injective_iff.2 hentry (congrArg OrderedMap.entries h))
  intro rows rows' h
  have hentry : Function.Injective fun e : Int × OrderedMap Char Int =>
      (e.1, e.2.mapKeys CodePoint.char char_beq_char) := by
    rintro ⟨q, row⟩ ⟨q', row'⟩ h
    obtain ⟨hq, h⟩ := Prod.mk.inj h
    exact Prod.ext hq (hrow h)
  exact OrderedMap.ext (List.map_injective_iff.2 hentry (congrArg OrderedMap.entries h))

end Rows

theorem Automaton.wide_injective : Function.Injective wide := by
  rintro ⟨rows, finals, _, _, _⟩ ⟨rows', finals', _, _, _⟩ h
  obtain rfl : rows = rows' := Rows.wide_injective (congrArg WideAutomaton.rows h)
  obtain rfl : finals = finals' := congrArg WideAutomaton.finals h
  rfl

namespace WideAutomaton

variable {d : WideAutomaton}

def hasSurrogate (d : WideAutomaton) : Bool := d.rows.symbols.any CodePoint.isSurrogate

/-- What has no surrogate is an automaton over characters. -/
theorem hasSurrogate_eq_false_iff : d.hasSurrogate = false ↔ ∃ e : Automaton, d = e.wide := by
  constructor
  · intro h
    obtain ⟨wide, finals, hcomplete, hascending, hblank⟩ := d
    obtain ⟨rows, rfl⟩ := Rows.exists_eq_wide fun c hc => Bool.eq_false_iff.2 (List.any_eq_false.1 h c hc)
    have hnone : failure? 0 rows finals rows.symbols = none := by
      rw [← Rows.failure?_wide]; exact failure?_eq_none_iff.2 hcomplete
    rw [Rows.symbols_wide, List.forall_mem_map] at hblank
    exact ⟨⟨rows, finals, failure?_eq_none_iff.1 hnone, hascending, hblank⟩, rfl⟩
  · rintro ⟨e, rfl⟩
    show e.rows.wide.symbols.any _ = false
    rw [Rows.symbols_wide, List.any_map]
    simp [Function.comp_def, CodePoint.isSurrogate]

theorem mem_format {q t : Int} {c : CodePoint} (h : (q, c, t) ∈ d.rows.edges) : c ∈ d.format := by
  refine List.mem_append_right _ (List.mem_flatMap.2 ⟨_, h, ?_⟩)
  exact List.mem_append_right _ (List.mem_cons_self)

/-- A surrogate among the symbols is one in the text. -/
theorem encodeAll_format_of_surrogate (h : d.hasSurrogate = true) :
    Text.Utf8.encodeAll d.format = .error (Text.surrogatesOf d.format) := by
  obtain ⟨c, hc, hsurrogate⟩ := List.any_eq_true.1 h
  obtain ⟨q, t, ht⟩ := Rows.mem_symbols_iff.1 hc
  exact Text.Utf8.encodeAll_of_surrogate (mem_format (Rows.mem_edges.2 ht)) hsurrogate

theorem formatEdge_char (q t : Int) (c : Char) :
    formatEdge (q, .char c, t) = codePoints (Automaton.formatEdge (q, c, t) ++ "\n") := by
  simp [formatEdge, Automaton.formatEdge, codePoints]

theorem format_wide (e : Automaton) : e.wide.format = e.format.toList.map .char := by
  have hedges : e.wide.rows.edges = e.edges.map fun e => (e.1, CodePoint.char e.2.1, e.2.2) := Rows.edges_wide e.rows
  have hfinals : e.wide.finals = e.finals := rfl
  rw [format, hedges, hfinals, List.flatMap_map, Automaton.format, String.toList_join, Automaton.formatLines,
    List.map_cons, List.flatMap_cons, List.map_append, List.map_map, List.flatMap_map, List.map_flatMap]
  simp only [formatEdge_char]
  rfl

theorem encodeAll_format_wide (e : Automaton) :
    Text.Utf8.encodeAll e.wide.format = .ok (Text.Utf8.encode e.format.toList) := by
  rw [format_wide, Text.Utf8.encodeAll_map_char]

end WideAutomaton

end Acceptor
