import Acceptor.Proofs.Recording
import Mathlib.Data.List.Perm.Basic
import Mathlib.Data.Set.List

/-!
# The order of a description

`Rearranged key l l'`: the lists have the same entries, and those with the same key in the same order. If
transitions keep their order wherever they have the same source and symbol, the last of them stays the last
(`Rearranged.lastTarget?_eq`), so that nothing that a builder shows tells where they stood (`Agrees`). This
holds for the lines of a description and for calls on a builder alike (`agrees_of_rearranged`).
-/

namespace Acceptor

/-- The same entries, those with the same key in the same order. -/
def Rearranged {α κ : Type} [BEq κ] (key : α → κ) (l l' : List α) : Prop :=
  ∀ k, l.filter (key · == k) = l'.filter (key · == k)

theorem Rearranged.perm {α κ : Type} [BEq κ] [LawfulBEq κ] {key : α → κ} {l l' : List α}
    (h : Rearranged key l l') : l.Perm l' := by
  classical
  rw [List.perm_iff_count]
  intro a
  have ha : (key a == key a) = true := beq_self_eq_true (key a)
  calc l.count a
      = (l.filter (key · == key a)).count a := (List.count_filter (p := (key · == key a)) ha).symm
    _ = (l'.filter (key · == key a)).count a := by rw [h]
    _ = l'.count a := List.count_filter (p := (key · == key a)) ha

/-- Neighbours with different keys may change places. -/
theorem Rearranged.swap {α κ : Type} [BEq κ] [LawfulBEq κ] {key : α → κ} {a b : α} (h : key a ≠ key b)
    (l m : List α) : Rearranged key (l ++ a :: b :: m) (l ++ b :: a :: m) := by
  intro k
  rw [List.filter_append, List.filter_append]
  by_cases ha : (key a == k) = true
  · have hb : ¬(key b == k) = true := fun hb => h ((eq_of_beq ha).trans (eq_of_beq hb).symm)
    simp only [List.filter_cons, if_neg hb]
  · simp only [List.filter_cons, if_neg ha]

/-- The source and the symbol of the transition on a line. -/
def Line.key? (line : String) : Option (Int × Char) := (transition line none).toOption.map Transition.key

theorem Line.Reads.key?_eq {line : String} {t : Transition} (h : Reads line t) : key? line = some t.key := by
  rw [key?, transition_eq_ok_iff.2 h]; rfl

theorem lastTarget?_eq_getLast? (ts : List Transition) (q : Int) (c : Char) :
    lastTarget? ts q c = (ts.filter (·.key == (q, c))).getLast?.map (·.target) := by
  rw [lastTarget?, ← List.head?_filter, List.filter_reverse, List.head?_reverse]; rfl

theorem Rearranged.lastTarget?_eq {ts us : List Transition} (h : Rearranged Transition.key ts us) (q : Int)
    (c : Char) : lastTarget? ts q c = lastTarget? us q c := by
  rw [lastTarget?_eq_getLast?, lastTarget?_eq_getLast?, h]

/-- Rearranged lines that can be read are rearranged transitions. -/
theorem Rearranged.of_lines {rest rest' : List String} {ts ts' : List Transition}
    (h : Rearranged Line.key? rest rest') (hts : List.Forall₂ Line.Reads rest ts)
    (hts' : List.Forall₂ Line.Reads rest' ts') : Rearranged Transition.key ts ts' := by
  intro k
  have hkey : ∀ ⦃line : String⦄ ⦃t : Transition⦄, Line.Reads line t →
      ((Line.key? line == some k) = true ↔ (t.key == k) = true) := fun line t ht => by
    rw [ht.key?_eq, beq_iff_eq, beq_iff_eq, Option.some.injEq]
  have hfilter := List.rel_filter hkey hts
  rw [h (some k)] at hfilter
  exact List.right_unique_forall₂' (fun _ _ _ ht hu => ht.means.unique hu.means) hfilter
    (List.rel_filter hkey hts')

/-- The first lines list the same final states, in any order and any number of times, and the others are
rearranged. Blank lines do not count. -/
def RearrangedLines (lines lines' : List String) : Prop :=
  ∃ header rest header' rest', Text.contents lines = header :: rest ∧ Text.contents lines' = header' :: rest' ∧
    (∀ r, r ∈ (Text.words header).map Numeral.read ↔ r ∈ (Text.words header').map Numeral.read) ∧
    Rearranged Line.key? rest rest'

/-- A line with the same ids can be read, too. -/
theorem Line.Lists.exists_same {header header' : String} {ids : List Int} (hids : Lists header ids)
    (h : ∀ r, r ∈ (Text.words header).map Numeral.read ↔ r ∈ (Text.words header').map Numeral.read) :
    ∃ ids', Lists header' ids' ∧ ∀ q, q ∈ ids ↔ q ∈ ids' := by
  rw [forall₂_eq_ok_iff.1 hids] at h
  have hok : (Text.words header').map Numeral.read ∈ Set.range (List.map Except.ok) := by
    rw [Set.range_list_map]
    intro r hr
    obtain ⟨q, -, rfl⟩ := List.mem_map.1 ((h r).2 hr)
    exact ⟨q, rfl⟩
  obtain ⟨ids', hids'⟩ := hok
  refine ⟨ids', forall₂_eq_ok_iff.2 hids'.symm, fun q => ?_⟩
  have hq := h (.ok q)
  rw [← hids'] at hq
  have hinj : Function.Injective (Except.ok : Int → Except Numeral.Refusal Int) := fun _ _ => Except.ok.inj
  rwa [List.mem_map_of_injective hinj, List.mem_map_of_injective hinj] at hq

namespace Builder

variable {b b' : Builder} {rows rows' : Rows Int Char}

/-- The builders have the same states with the same edges, the same symbols and the same set of final
states, and the same comes out of checking and freezing them. -/
structure Agrees (b b' : Builder) : Prop where
  stateIds : ∀ q, q ∈ b.states.keys ↔ q ∈ b'.states.keys
  alphabet : b.alphabet = b'.alphabet
  finals : ∀ q, q ∈ b.finals ↔ q ∈ b'.finals
  state : ∀ id q s, b.state? id = .ok (some (q, s)) →
    ∃ s', b'.state? id = .ok (some (q, s')) ∧ ∀ symbol, s.target? symbol = s'.target? symbol
  check : b.check = b'.check
  freeze : (∃ d d', b.freeze.2 = .ok d ∧ b'.freeze.2 = .ok d' ∧ (d == d') = true) ∨
    ∃ f, b.freeze.2 = .error (.invalid f) ∧ b'.freeze.2 = .error (.invalid f)

theorem Agrees.of_holds (h : b.Holds rows) (h' : b'.Holds rows') (hs : b.spent = false) (hs' : b'.spent = false)
    (hc : ∀ q, rows.contains q = rows'.contains q) (ht : ∀ q c, rows.target? q c = rows'.target? q c)
    (hf : ∀ q, q ∈ b.finals ↔ q ∈ b'.finals) : b.Agrees b' := by
  have hsymbols : ∀ c, c ∈ rows.symbols ↔ c ∈ rows'.symbols := fun c => by
    simp only [Rows.mem_symbols_iff, ht]
  have hnil : b.finals = [] ↔ b'.finals = [] := by
    simp only [List.eq_nil_iff_forall_not_mem, hf]
  have hfailure : failure? Automaton.initial rows b.finals rows.symbols =
      failure? Automaton.initial rows' b'.finals rows'.symbols :=
    (failure?_congr hnil hsymbols).trans (failure?_congr_rows b'.finals rows'.symbols hc ht)
  refine ⟨fun q => ?_, ?_, hf, fun id q s hstate => ?_, ?_, ?_⟩
  · rw [OrderedMap.mem_keys_iff, OrderedMap.mem_keys_iff, h.contains_states, h'.contains_states, hc]
  · rw [h.alphabet, h'.alphabet]; exact ascending_congr hsymbols
  · obtain ⟨hkey, hq, hs⟩ := state?_eq_some_iff.1 hstate
    have hcontains : b'.states.contains q = true := by
      rw [h'.contains_states, ← hc, ← h.contains_states]; exact OrderedMap.contains_iff.2 ⟨s, hs⟩
    obtain ⟨s', hs'⟩ := OrderedMap.contains_iff.1 hcontains
    refine ⟨s', state?_eq_some_iff.2 ⟨hkey, hq, hs'⟩, fun symbol => ?_⟩
    have hrow : ∀ c, (rows.rowOf q).find? c = (rows'.rowOf q).find? c := fun c => by
      rw [Rows.find?_rowOf, Rows.find?_rowOf, ht]
    rw [State.target?, State.target?, h.edges_state hs, h'.edges_state hs',
      OrderedMap.find?_rename_congr _ _ hrow]
  · rw [h.check, h'.check, hfailure]
  · cases hd : failure? Automaton.initial rows b.finals rows.symbols with
    | some f =>
      exact .inr ⟨f, (h.freeze_eq_error_iff hs).2 ⟨f, rfl, hd⟩,
        (h'.freeze_eq_error_iff hs').2 ⟨f, rfl, hfailure ▸ hd⟩⟩
    | none =>
      obtain ⟨d, hfreeze⟩ := (h.exists_freeze_iff hs).1 hd
      obtain ⟨d', hfreeze'⟩ := (h'.exists_freeze_iff hs').1 (hfailure ▸ hd)
      obtain ⟨-, hrows, hfinals⟩ := (h.freeze_eq_ok_iff hs).1 hfreeze
      obtain ⟨-, hrows', hfinals'⟩ := (h'.freeze_eq_ok_iff hs').1 hfreeze'
      have halike : Automaton.Alike d d' :=
        ⟨by rw [hrows, hrows']; exact hc, fun q c => ?_, by rw [hfinals, hfinals']; exact ascending_congr hf⟩
      · exact .inl ⟨d, d', hfreeze, hfreeze', halike.beq⟩
      · show d.rows.target? q c = d'.rows.target? q c
        rw [hrows, hrows', ht]

/-- Transitions that are put in another order are the same to all that the builder shows. -/
theorem Agrees.of_rearranged {ts us : List Transition} (h : b.Holds rows) (h' : b'.Holds rows)
    (hs : b.spent = false) (hs' : b'.spent = false) (hf : ∀ q, q ∈ b.finals ↔ q ∈ b'.finals)
    (hblank : ∀ t ∈ ts, Text.isBlank t.symbol = false) (hts : Rearranged Transition.key ts us) :
    (ts.foldl put b).Agrees (us.foldl put b') := by
  have hmem : ∀ t, t ∈ ts ↔ t ∈ us := fun t => hts.perm.mem_iff
  have hblank' : ∀ t ∈ us, Text.isBlank t.symbol = false := fun t ht => hblank t ((hmem t).2 ht)
  refine .of_holds (h.foldl_put hblank) (h'.foldl_put hblank') ?_ ?_ (fun q => ?_) (fun q c => ?_) ?_
  · rw [spent_foldl_put, hs]
  · rw [spent_foldl_put, hs']
  · rw [contains_foldl_addTransition, contains_foldl_addTransition, hts.perm.any_eq]
  · rw [target?_foldl_addTransition, target?_foldl_addTransition, hts.lastTarget?_eq]
  · rw [finals_foldl_put, finals_foldl_put]; exact hf

/-- Lines that are put in another order are accepted as well, and the builders agree; so they do after calls
with the same additions in another order. -/
theorem agrees_of_rearranged :
    (∀ pieces pieces' lines lines' b, ofSource (.lines pieces) = .ok b →
      List.Forall₂ Piece.Holds pieces lines → List.Forall₂ Piece.Holds pieces' lines' →
      RearrangedLines lines lines' → ∃ b', ofSource (.lines pieces') = .ok b' ∧ b.Agrees b') ∧
    ∀ b : Builder, Reached b → b.spent = false → ∀ calls calls' : List Call,
      (∀ c ∈ calls, c.attempts = false) → (∀ c ∈ calls', c.attempts = false) →
      (∀ q, q ∈ calls.filterMap Call.final? ↔ q ∈ calls'.filterMap Call.final?) →
      Rearranged Transition.key (calls.filterMap Call.transition?) (calls'.filterMap Call.transition?) →
      (b.run calls).Agrees (b.run calls') := by
  constructor
  · rintro pieces pieces' lines lines' b hb hp hp' ⟨header, rest, header', rest', hc, hc', hheader, hrest⟩
    obtain ⟨_, _, _, ids, ts, hholds, hcontents, hids, hts, rfl⟩ := ofSource_lines_eq_ok_iff.1 hb
    obtain rfl := List.right_unique_forall₂' (fun _ _ _ hs ht => hs.unique ht) hp hholds
    rw [hc] at hcontents; cases hcontents
    obtain ⟨ids', hids', hmem⟩ := hids.exists_same hheader
    -- the lines behind the header are the same, so each of them can be read
    obtain ⟨ts', hts', -⟩ := List.perm_comp_forall₂ hrest.perm.symm hts
    refine ⟨collected ids' ts', ofSource_lines_eq_ok_iff.2
      ⟨lines', header', rest', ids', ts', hp', hc', hids', hts', rfl⟩, ?_⟩
    have hempty : ∀ ids, Holds { empty with finals := ids } ∅ := fun ids => Holds.empty.congr rfl rfl
    exact .of_rearranged (hempty ids) (hempty ids') rfl rfl hmem (isBlank_of_reads hts) (hrest.of_lines hts hts')
  · intro b hreached hs calls calls' hcalls hcalls' hfinals hts
    obtain ⟨rows, hrows⟩ := hreached.holds
    rw [run_eq hs hcalls, run_eq hs hcalls']
    refine .of_rearranged (hrows.congr rfl rfl) (hrows.congr rfl rfl) hs hs (fun q => ?_) (fun t ht => ?_) hts
    · show q ∈ b.finals ++ _ ↔ q ∈ b.finals ++ _
      rw [List.mem_append, List.mem_append, hfinals]
    · obtain ⟨c, -, hc⟩ := List.mem_filterMap.1 ht
      exact (Call.transition?_eq_some_iff.1 hc).2

/-- Ids of the header repeated and respelled, a line moved past others, two lines that overwrite each other. -/
theorem agrees_of_rearranged_moved :
    let pieces : List Piece := [.text "0 1", .text "1 a 0", .text "0 a 0", .text "0 a 1"]
    let pieces' : List Piece := [.text "1 0 +1", .text "0 a 0", .text "1 a 0", .text "0 a 1"]
    ∃ b b', ofSource (.lines pieces) = .ok b ∧ ofSource (.lines pieces') = .ok b' ∧ b.Agrees b' ∧
      (empty.run [.addFinal (.int 1), .transition ⟨1, 'a', 0⟩, .transition ⟨0, 'a', 1⟩]).Agrees
        (empty.run [.transition ⟨0, 'a', 1⟩, .transition ⟨1, 'a', 0⟩, .addFinal (.int 1), .check]) := by
  intro pieces pieces'
  have hb : ofSource (.lines pieces) = .ok (collected [0, 1] [⟨1, 'a', 0⟩, ⟨0, 'a', 0⟩, ⟨0, 'a', 1⟩]) := rfl
  have hp : List.Forall₂ Piece.Holds pieces ["0 1", "1 a 0", "0 a 0", "0 a 1"] :=
    .cons (.text _) <| .cons (.text _) <| .cons (.text _) <| .cons (.text _) .nil
  have hp' : List.Forall₂ Piece.Holds pieces' ["1 0 +1", "0 a 0", "1 a 0", "0 a 1"] :=
    .cons (.text _) <| .cons (.text _) <| .cons (.text _) <| .cons (.text _) .nil
  have hlines : RearrangedLines ["0 1", "1 a 0", "0 a 0", "0 a 1"] ["1 0 +1", "0 a 0", "1 a 0", "0 a 1"] := by
    refine ⟨_, _, _, _, rfl, rfl, fun r => ?_, .swap (by decide) [] ["0 a 1"]⟩
    have hr : (Text.words "0 1").map Numeral.read = [.ok 0, .ok 1] := rfl
    have hr' : (Text.words "1 0 +1").map Numeral.read = [.ok 1, .ok 0, .ok 1] := rfl
    rw [hr, hr']
    simp only [List.mem_cons, List.not_mem_nil, or_false]
    tauto
  obtain ⟨b', hb', hagrees⟩ := agrees_of_rearranged.1 pieces pieces' _ _ _ hb hp hp' hlines
  exact ⟨_, b', hb, hb', hagrees, agrees_of_rearranged.2 empty .empty rfl _ _ (by decide) (by decide)
    (fun q => Iff.rfl) (.swap (by decide) [] [])⟩

end Builder

end Acceptor
