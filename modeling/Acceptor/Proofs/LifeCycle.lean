import Acceptor.Proofs.Additions

/-!
# The life of a builder

Whatever is called on a builder, nothing that it has collected is lost (`Grows.run`), and a call that is
refused changes none of it (`SameData.of_error`). The first attempt at the automaton spends the builder, whether
it succeeds or not (`spent_run`). From then on every addition and every attempt is refused without a look at
its arguments (`call_of_spent`), so that no run makes two automata (`countP_replies_le`).
-/

namespace Acceptor

namespace Builder

/-- The call is an addition or an attempt. -/
def Call.writes : Call → Bool
  | .addFinal _ | .addTransition .. | .freeze | .build => true
  | _ => false

/-- The reply hands over an automaton. -/
def givesAutomaton : Except Fault Reply → Bool
  | .ok (.automaton _) | .ok (.attempt (some _)) => true
  | _ => false

/-- The same final states, states with their edges, and symbols. -/
structure SameData (b b' : Builder) : Prop where
  states : b'.states = b.states
  finals : b'.finals = b.finals
  alphabet : b'.alphabet = b.alphabet

/-- All that `b` has is still there in `b'`, in the same order, and what is new comes behind it. -/
structure Grows (b b' : Builder) : Prop where
  stateIds : b.states.keys <+: b'.states.keys
  symbols : ∀ q s, b.states.find? q = some s → ∃ s', b'.states.find? q = some s' ∧ s.symbols <+: s'.symbols
  alphabet : b.alphabet ⊆ b'.alphabet
  finals : b.finals <+: b'.finals

variable {b b' b'' : Builder} {c : Call} {calls : List Call}

namespace Grows

theorem of_sameData (h : SameData b b') : Grows b b' where
  stateIds := by simp [h.states]
  symbols q s hs := ⟨s, by rw [h.states]; exact hs, List.prefix_rfl⟩
  alphabet := by rw [h.alphabet]; exact List.Subset.refl _
  finals := by simp [h.finals]

theorem trans (h : Grows b b') (h' : Grows b' b'') : Grows b b'' where
  stateIds := h.stateIds.trans h'.stateIds
  symbols q s hs := by
    obtain ⟨s', hs', hsymbols⟩ := h.symbols q s hs
    obtain ⟨s'', hs'', hsymbols'⟩ := h'.symbols q s' hs'
    exact ⟨s'', hs'', hsymbols.trans hsymbols'⟩
  alphabet := List.Subset.trans h.alphabet h'.alphabet
  finals := h.finals.trans h'.finals

theorem withEdge (b : Builder) (q : Int) (symbol target : Value) : Grows b (b.withEdge q symbol target) where
  stateIds := OrderedMap.keys_prefix_insert _ _ _
  symbols p s hs := by
    have hfind : (b.withEdge q symbol target).states.find? p = _ := OrderedMap.find?_insert b.states q p _
    by_cases hq : (q == p) = true
    · obtain rfl := eq_of_beq hq
      refine ⟨_, hfind.trans (if_pos hq), ?_⟩
      rw [stateOrEmpty, hs]
      exact OrderedMap.keys_prefix_insert _ _ _
    · exact ⟨s, hfind.trans ((if_neg hq).trans hs), List.prefix_rfl⟩
  alphabet := List.Subset.refl _
  finals := List.prefix_rfl

theorem put (b : Builder) (t : Transition) : Grows b (b.put t) :=
  { withEdge b t.source (.char t.symbol) (.int t.target) with
    alphabet := fun _ hc => mem_insertOnce.2 (.inr hc) }

theorem call (b : Builder) (c : Call) : Grows b (b.call c).1 := by
  rcases call_cases b c with ⟨hs, q, rfl⟩ | ⟨hs, t, rfl, ht⟩ | ⟨-, hb⟩ | ⟨-, hb, -⟩
  · rw [call_final hs]
    exact ⟨List.prefix_rfl, fun q s h => ⟨s, h, List.prefix_rfl⟩, List.Subset.refl _, List.prefix_append _ _⟩
  · rw [call_transition hs ht]; exact put b t
  · rw [hb]; exact of_sameData ⟨rfl, rfl, rfl⟩
  · rw [hb]; exact of_sameData ⟨rfl, rfl, rfl⟩

theorem run (b : Builder) (calls : List Call) : Grows b (b.run calls) := by
  induction calls generalizing b with
  | nil => exact of_sameData ⟨rfl, rfl, rfl⟩
  | cons c calls ih => exact (call b c).trans (ih (b.call c).1)

end Grows

theorem SameData.of_error {fault : Fault} (h : (b.call c).2 = .error fault) : SameData b (b.call c).1 := by
  rcases call_cases b c with ⟨hs, q, rfl⟩ | ⟨hs, t, rfl, ht⟩ | ⟨-, hb⟩ | ⟨-, hb, -⟩
  · rw [call_final hs] at h; cases h
  · rw [call_transition hs ht] at h; cases h
  · rw [hb]; exact ⟨rfl, rfl, rfl⟩
  · rw [hb]; exact ⟨rfl, rfl, rfl⟩

theorem spent_call (b : Builder) (c : Call) : (b.call c).1.spent = (b.spent || c.attempts) := by
  rcases call_cases b c with ⟨hs, q, rfl⟩ | ⟨hs, t, rfl, ht⟩ | ⟨hc, hb⟩ | ⟨hc, hb, -⟩
  · rw [call_final hs]; exact (Bool.or_false _).symm
  · rw [call_transition hs ht]; exact (Bool.or_false _).symm
  · rw [hb, hc, Bool.or_true]
  · rw [hb, hc, Bool.or_false]

theorem spent_run (b : Builder) (calls : List Call) :
    (b.run calls).spent = (b.spent || calls.any Call.attempts) := by
  induction calls generalizing b with
  | nil => exact (Bool.or_false _).symm
  | cons c calls ih =>
    show ((b.call c).1.run calls).spent = _
    rw [ih, spent_call, List.any_cons, Bool.or_assoc]

/-- The arguments of the call do not matter. -/
theorem call_of_spent (hs : b.spent = true) (hc : c.writes = true) : b.call c = (b, .error .spent) := by
  have hcheck := checkUnspent_of_spent hs
  cases c with
  | addFinal id =>
    exact Operation.perform_bind_of_error (Operation.perform_check_bind_error hcheck)
  | addTransition source symbol target =>
    exact Operation.perform_bind_of_error (Operation.perform_check_bind_error hcheck)
  | freeze => rw [call_freeze, freeze_of_spent hs]; rfl
  | build => rw [call_build, freeze_of_spent hs]; rfl
  | finals | alphabet | stateIds | state _ | check => cases hc

theorem Call.writes_of_attempts (h : c.attempts = true) : c.writes = true := by
  cases c with
  | freeze | build => rfl
  | _ => cases h

/-- A reply that is made from something else than an automaton gives none. -/
theorem givesAutomaton_map {α : Type} {f : α → Reply} (hf : ∀ a, givesAutomaton (.ok (f a)) = false)
    (x : Except Fault α) : givesAutomaton (x.map f) = false := by
  cases x with
  | error fault => rfl
  | ok a => exact hf a

/-- Only an attempt on a builder that is not spent gives an automaton. -/
theorem attempts_of_givesAutomaton (h : givesAutomaton (b.call c).2 = true) :
    b.spent = false ∧ c.attempts = true := by
  have hattempts : c.attempts = true := by
    by_contra hc
    refine Bool.eq_false_iff.1 ?_ h
    cases c with
    | addFinal id =>
      cases hb : b.addFinal id with
      | ok b' => rw [call_addFinal hb]; rfl
      | error fault => rw [call_addFinal_error hb]; rfl
    | addTransition source symbol target =>
      cases hb : b.addTransition source symbol target with
      | ok b' => rw [call_addTransition hb]; rfl
      | error fault => rw [call_addTransition_error hb]; rfl
    | state id => rw [call_state]; exact givesAutomaton_map (fun _ => rfl) _
    | check => rw [call_check]; exact givesAutomaton_map (fun _ => rfl) _
    | finals | alphabet | stateIds => rfl
    | freeze | build => exact absurd rfl hc
  refine ⟨Bool.eq_false_iff.2 fun hs => ?_, hattempts⟩
  rw [call_of_spent hs (Call.writes_of_attempts hattempts)] at h; cases h

theorem countP_replies_le (b : Builder) (calls : List Call) :
    (b.replies calls).countP givesAutomaton ≤ if b.spent then 0 else 1 := by
  induction calls generalizing b with
  | nil => exact Nat.zero_le _
  | cons c calls ih =>
    have hrest := ih (b.call c).1
    rw [spent_call] at hrest
    rw [replies, List.countP_cons]
    by_cases h : givesAutomaton (b.call c).2 = true
    · obtain ⟨hs, hc⟩ := attempts_of_givesAutomaton h
      rw [hs, hc] at hrest
      rw [if_pos h, hs]
      exact Nat.succ_le_succ hrest
    · rw [if_neg h]
      refine hrest.trans ?_
      cases b.spent <;> cases c.attempts <;> decide

/-- At any time in a run of calls with any arguments: a refused call changes no data, the builder is spent
since the first attempt and takes nothing from then on, one automaton at most has been made, and nothing has
been lost. -/
theorem lifeCycle_of_run (b : Builder) (calls : List Call) :
    (∀ c fault, ((b.run calls).call c).2 = .error fault →
      SameData (b.run calls) ((b.run calls).call c).1) ∧
    ((b.run calls).spent = true ↔ b.spent = true ∨ ∃ c ∈ calls, c.attempts = true) ∧
    ((b.run calls).spent = true → ∀ c : Call, c.writes = true →
      (b.run calls).call c = (b.run calls, .error .spent)) ∧
    (b.replies calls).countP givesAutomaton ≤ 1 ∧
    Grows b (b.run calls) := by
  refine ⟨fun c fault h => .of_error h, ?_, fun hs c hc => call_of_spent hs hc, ?_, .run b calls⟩
  · rw [spent_run, Bool.or_eq_true, List.any_eq_true]
  · have hle := countP_replies_le b calls
    split at hle <;> omega

/-- A transition that is refused, an attempt that fails, and an addition behind it. -/
theorem lifeCycle_of_run_refused :
    let b := Builder.empty.run [.addFinal (.int 0), .addTransition (.int 1) (.text "a") (.int 1)]
    (b.call (.addTransition (.int 2) (.text "ab") (.int 0))).2 = .error (.notSymbol (.text "ab")) ∧
    SameData b (b.call (.addTransition (.int 2) (.text "ab") (.int 0))).1 ∧
    (b.call .build).2 = .ok (.attempt none) ∧
    (b.run [.build]).call (.addFinal .null) = (b.run [.build], .error .spent) := by
  intro b
  have hrefused : (b.call (.addTransition (.int 2) (.text "ab") (.int 0))).2 =
      .error (.notSymbol (.text "ab")) := rfl
  have hbuild : (b.call .build).2 = .ok (.attempt none) := rfl
  have hspent : (b.run [.build]).spent = true := rfl
  exact ⟨hrefused, (lifeCycle_of_run _ _).1 _ _ hrefused, hbuild,
    (lifeCycle_of_run b [.build]).2.2.1 hspent _ rfl⟩

end Builder

end Acceptor
