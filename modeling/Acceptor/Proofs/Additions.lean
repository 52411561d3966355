import Acceptor.Proofs.Calls

/-!
# Runs of calls

`Call.final q` and `Call.transition t` are the additions that a fresh builder takes; every other call leaves
what is collected alone, and an attempt at the automaton also spends the builder (`call_cases`). A run without
an attempt therefore collects the additions in it, in order (`run_eq`), and if they are all that it consists
of, none of them is refused (`eq_done_of_mem_replies`).
-/

namespace Acceptor.Builder

namespace Call

def final (q : Int) : Call := .addFinal (.int q)

def transition (t : Transition) : Call := .addTransition (.int t.source) (.char t.symbol) (.int t.target)

/-- The final state that the call declares, if it is well typed. -/
def final? : Call → Option Int
  | .addFinal id => id.stateId?
  | _ => none

/-- The transition that the call adds, if it is well typed. -/
def transition? : Call → Option Transition
  | .addTransition source symbol target => do
    return ⟨← source.stateId?, ← symbol.symbol?, ← target.stateId?⟩
  | _ => none

/-- The call asks for the automaton. -/
def attempts : Call → Bool
  | .freeze | .build => true
  | _ => false

variable {c : Call} {q : Int} {t : Transition}

theorem final?_eq_some_iff : c.final? = some q ↔ c = final q := by
  constructor
  · intro h
    cases c with
    | addFinal id => exact congrArg addFinal (Value.eq_int_of_stateId? h)
    | _ => cases h
  · rintro rfl; rfl

theorem transition?_eq_some_iff :
    c.transition? = some t ↔ c = transition t ∧ Text.isBlank t.symbol = false := by
  constructor
  · intro h
    cases c with
    | addTransition source symbol target =>
      simp only [transition?, Option.bind_eq_bind, Option.bind_eq_some_iff, Option.pure_def,
        Option.some.injEq] at h
      obtain ⟨p, hp, c, hc, r, hr, rfl⟩ := h
      obtain rfl := Value.eq_int_of_stateId? hp
      obtain rfl := Value.eq_int_of_stateId? hr
      have hblank := Value.isBlank_of_symbol? hc
      obtain rfl := Value.eq_char_of_symbol? hc
      exact ⟨rfl, hblank⟩
    | _ => cases h
  · rintro ⟨rfl, ht⟩
    simp [transition, transition?, Value.symbol?_char ht, Value.stateId?]

end Call

variable {b : Builder} {c : Call} {calls : List Call}

theorem call_final (hs : b.spent = false) (q : Int) :
    b.call (.final q) = ({ b with finals := b.finals ++ [q] }, .ok .done) :=
  call_addFinal (addFinal_int hs q)

theorem call_transition (hs : b.spent = false) {t : Transition} (ht : Text.isBlank t.symbol = false) :
    b.call (.transition t) = (b.put t, .ok .done) :=
  call_addTransition (addTransition_typed hs t ht)

/-- Everything that a call can do to the builder. -/
theorem call_cases (b : Builder) (c : Call) :
    (b.spent = false ∧ ∃ q, c = .final q) ∨
    (b.spent = false ∧ ∃ t, c = .transition t ∧ Text.isBlank t.symbol = false) ∨
    (c.attempts = true ∧ (b.call c).1 = { b with spent := true }) ∨
    (c.attempts = false ∧ (b.call c).1 = b ∧
      (b.spent = false → c.final? = none ∧ c.transition? = none)) := by
  cases c with
  | addFinal id =>
    cases hb : b.addFinal id with
    | ok b' =>
      obtain ⟨hs, q, rfl, -⟩ := addFinal_eq_ok_iff.1 hb
      exact .inl ⟨hs, q, rfl⟩
    | error fault =>
      refine .inr (.inr (.inr ⟨rfl, ?_, fun hs => ⟨?_, rfl⟩⟩))
      · rw [call_addFinal_error hb]
      · refine Option.eq_none_iff_forall_ne_some.2 fun q hq => ?_
        cases Call.final?_eq_some_iff.1 hq
        rw [addFinal_int hs] at hb; cases hb
  | addTransition source symbol target =>
    cases hb : b.addTransition source symbol target with
    | ok b' =>
      obtain ⟨hs, t, rfl, rfl, ht, rfl, -⟩ := addTransition_eq_ok_iff.1 hb
      exact .inr (.inl ⟨hs, t, rfl, ht⟩)
    | error fault =>
      refine .inr (.inr (.inr ⟨rfl, ?_, fun hs => ⟨rfl, ?_⟩⟩))
      · rw [call_addTransition_error hb]
      · refine Option.eq_none_iff_forall_ne_some.2 fun t ht => ?_
        obtain ⟨hcall, hblank⟩ := Call.transition?_eq_some_iff.1 ht
        cases hcall
        rw [addTransition_typed hs t hblank] at hb; cases hb
  | finals | alphabet | stateIds => exact .inr (.inr (.inr ⟨rfl, rfl, fun _ => ⟨rfl, rfl⟩⟩))
  | state id => exact .inr (.inr (.inr ⟨rfl, by rw [call_state], fun _ => ⟨rfl, rfl⟩⟩))
  | check => exact .inr (.inr (.inr ⟨rfl, by rw [call_check], fun _ => ⟨rfl, rfl⟩⟩))
  | freeze => exact .inr (.inr (.inl ⟨rfl, by rw [call_freeze, freeze_fst]⟩))
  | build => exact .inr (.inr (.inl ⟨rfl, by rw [call_build, freeze_fst]⟩))

/-- A run without an attempt collects its well-typed additions, in order. -/
theorem run_eq (hs : b.spent = false) (hc : ∀ c ∈ calls, c.attempts = false) :
    b.run calls = (calls.filterMap Call.transition?).foldl put
      { b with finals := b.finals ++ calls.filterMap Call.final? } := by
  induction calls generalizing b with
  | nil => simp [run]
  | cons c calls ih =>
    have hcalls : ∀ c ∈ calls, c.attempts = false := fun a ha => hc a (List.mem_cons_of_mem _ ha)
    show (b.call c).1.run calls = _
    rcases call_cases b c with ⟨-, q, rfl⟩ | ⟨-, t, rfl, ht⟩ | ⟨ha, -⟩ | ⟨-, hb, hnone⟩
    · have hq : (Call.final q).final? = some q := Call.final?_eq_some_iff.2 rfl
      have hnone : (Call.final q).transition? = none := rfl
      rw [call_final hs, List.filterMap_cons_some hq, List.filterMap_cons_none hnone,
        List.append_cons b.finals q (calls.filterMap Call.final?)]
      exact ih (b := { b with finals := b.finals ++ [q] }) hs hcalls
    · have hput : (Call.transition t).transition? = some t := Call.transition?_eq_some_iff.2 ⟨rfl, ht⟩
      have hnone : (Call.transition t).final? = none := rfl
      rw [call_transition hs ht, List.filterMap_cons_some hput, List.filterMap_cons_none hnone]
      exact ih (b := b.put t) hs hcalls
    · rw [hc c List.mem_cons_self] at ha; cases ha
    · obtain ⟨hfinal, htransition⟩ := hnone hs
      rw [hb, ih hs hcalls, List.filterMap_cons_none hfinal, List.filterMap_cons_none htransition]

/-- The replies to some calls, in order. -/
def replies (b : Builder) : List Call → List (Except Fault Reply)
  | [] => []
  | c :: calls => (b.call c).2 :: (b.call c).1.replies calls

/-- A builder that is not spent takes every well-typed addition. -/
theorem eq_done_of_mem_replies (hs : b.spent = false)
    (hc : ∀ c ∈ calls, c.final?.isSome ∨ c.transition?.isSome) :
    ∀ reply ∈ b.replies calls, reply = .ok .done := by
  induction calls generalizing b with
  | nil => intro reply h; cases h
  | cons c calls ih =>
    have hcalls : ∀ c ∈ calls, c.final?.isSome ∨ c.transition?.isSome :=
      fun a ha => hc a (List.mem_cons_of_mem _ ha)
    obtain ⟨b', hs', hb'⟩ : ∃ b' : Builder, b'.spent = false ∧ b.call c = (b', .ok .done) := by
      rcases hc c List.mem_cons_self with h | h
      · obtain ⟨q, hq⟩ := Option.isSome_iff_exists.1 h
        obtain rfl := Call.final?_eq_some_iff.1 hq
        exact ⟨{ b with finals := b.finals ++ [q] }, hs, call_final hs q⟩
      · obtain ⟨t, ht⟩ := Option.isSome_iff_exists.1 h
        obtain ⟨rfl, hblank⟩ := Call.transition?_eq_some_iff.1 ht
        exact ⟨b.put t, hs, call_transition hs hblank⟩
    rw [replies, hb']
    intro reply h
    rcases List.mem_cons.1 h with rfl | h
    · rfl
    · exact ih hs' hcalls reply h

end Acceptor.Builder
