import Acceptor.Proofs.Dialogue
import Acceptor.Proofs.Meaning
import Mathlib.Logic.Function.Iterate

/-!
# Log levels

A `Console` drops the records below its level on the way, before the session goes on. Two of them on the same
replies go in step, whatever their levels: at every moment they wait for the same, have asked for the same replies
and have shown the same, and at the lowest level nothing is dropped, so that what the other one has logged can be
chosen from there (`Console.Quieter`). In the end a console has done what a session does
(`Console.moment_eq_session`), and the level of a run only chooses among the records (`run_levels`). Whether a
record is dropped or not, it could have been put together: the numbers in it are short enough (`Worded`).
-/

namespace Acceptor.Command

/-- What a record can say. The numbers of states are short enough to be written. -/
inductive Worded : Record → Prop
  | missing : Worded ⟨.error, "The specified file didn't exist!"⟩
  | unreadable (fault : Fault) : Worded ⟨.error, "There was an error in the DFA: " ++ fault.message⟩
  | notAutomaton (f : Failure) :
    Worded ⟨.error, "The specified file was successfully parsed, but doesn't represent a valid DFA (" ++ f.reason ++
      ")."⟩
  | summary (b : Builder) (path : String) :
    Worded ⟨.info, "Read " ++ Numeral.toText b.states.size ++ " states over alphabet " ++
      String.ofList b.alphabet ++ " from " ++ path⟩
  | unreached {states : List Int} (h : ∀ q ∈ states, Numeral.Short q) :
    Worded ⟨.info, "States never reached from state 0: " ++ (Value.list (states.map .int)).literal⟩

section

variable {r : Record}

theorem worded_unreachedNote {d : Automaton} (h : ∀ q ∈ d.states, Numeral.Short q)
    (hr : .logged r ∈ unreachedNote d) : Worded r := by
  unfold unreachedNote at hr
  split at hr
  · cases hr
  · cases List.mem_singleton.1 hr
    exact .unreached fun q hq => h q (List.mem_filter.1 hq).1

theorem worded_load (path : String) (contents : Except Fault (List UInt8))
    (hr : .logged r ∈ (load path contents).1) : Worded r := by
  unfold load at hr
  split at hr
  · cases hr
  · next fault _ _ => cases List.mem_singleton.1 hr; exact .unreadable fault
  · next b hb =>
    rcases List.mem_cons.1 hr with heq | hr
    · cases heq; exact .summary b path
    · obtain ⟨bytes, -, hread⟩ := Except.bind_eq_ok_iff.1 hb
      unfold freeze at hr
      split at hr
      · next f _ => cases List.mem_singleton.1 hr; exact .notAutomaton f
      · cases hr
      · next d hd => exact worded_unreachedNote (Builder.short_of_ofLines hread hd) hr

theorem worded_ofFile (words : List String) (path : String) (contents : Except Fault (List UInt8))
    (hr : .logged r ∈ (Stage.ofFile words path contents).1) : Worded r := by
  refine worded_load path contents ?_
  unfold Stage.ofFile at hr
  split at hr
  · next hload => rw [hload]; exact hr
  · next d hload =>
    rw [hload]
    split at hr
    · exact hr
    · rcases List.mem_append.1 hr with hr | hr
      · exact hr
      · obtain ⟨_, -, heq⟩ := List.mem_map.1 hr
        cases heq

theorem worded_start (read : Reader) (options : Options)
    (hr : .logged r ∈ (Stage.start read options).1) : Worded r := by
  unfold Stage.start at hr
  split at hr
  · cases hr
  · cases hr
  · exact worded_ofFile _ _ _ hr

theorem worded_react (read : Reader) (words : List String) (reply : String) (stage : Stage)
    (hr : .logged r ∈ (stage.react read words reply).1) : Worded r := by
  unfold Stage.react at hr
  split at hr
  · dsimp only at hr
    split at hr
    · exact worded_ofFile _ _ _ hr
    · cases hr
    · exact worded_ofFile _ _ _ hr
    · cases List.mem_singleton.1 hr; exact .missing
  · split at hr
    · cases hr
    · cases List.mem_singleton.1 hr
  · cases hr

end

/-- Records below the level are dropped; whatever is shown is written. -/
def Event.writtenAt (level : Level) : Event → Bool
  | .shown _ => true
  | .logged r => r.shownAt level

/-- What is shown does not depend on the level. -/
theorem output_filter (level : Level) (events : List Event) :
    String.join ((events.filter (·.writtenAt level)).map Event.output) = String.join (events.map Event.output) := by
  induction events with
  | nil => rfl
  | cons e events ih =>
    by_cases he : e.writtenAt level = true
    · rw [List.filter_cons_of_pos he, List.map_cons, List.map_cons, String.join_cons, String.join_cons, ih]
    · cases e with
      | shown => exact absurd rfl he
      | logged r =>
        rw [List.filter_cons_of_neg he, List.map_cons, String.join_cons, ih]
        exact String.empty_append.symm

theorem records_filter (level : Level) (events : List Event) :
    (events.filter (·.writtenAt level)).filterMap Event.record? =
      (events.filterMap Event.record?).filter (·.shownAt level) := by
  rw [List.filterMap_filter, List.filter_filterMap]
  refine congrArg (List.filterMap · events) (funext fun e => ?_)
  cases e with
  | shown => rfl
  | logged r => rfl

/-- A session on its way. -/
structure Console where
  /-- What has been written, in order. -/
  written : List Event
  stage : Stage
  /-- The replies that have not been asked for. -/
  unread : List String

namespace Console

/-- Writes an event at once, or drops it for good. -/
def write (level : Level) (written : List Event) (e : Event) : List Event :=
  if e.writtenAt level then written ++ [e] else written

/-- A prompt, and the reply to it with what it leads to; the end of the replies is the end of the session. -/
def step (read : Reader) (words : List String) (level : Level) (c : Console) : Console :=
  match c.stage.prompt?, c.unread with
  | none, _ => c
  | some prompt, [] => ⟨write level c.written (.shown prompt), .over c.stage.status, []⟩
  | some prompt, reply :: replies =>
    let (events, stage) := c.stage.react read words reply
    ⟨(.shown prompt :: events).foldl (write level) c.written, stage, replies⟩

section

variable (read : Reader) (file : Option String) (words : List String) (level : Level) (replies : List String)

def start : Console :=
  let (events, stage) := Stage.start read ⟨file, words, some level⟩
  ⟨events.foldl (write level) [], stage, replies⟩

/-- The session after so many steps. -/
def moment (n : Nat) : Console := (step read words level)^[n] (start read file words level replies)

end

def output (c : Console) : String := String.join (c.written.map Event.output)

def records (c : Console) : List Record := c.written.filterMap Event.record?

/-- The one session has come as far as the other, and has written what the other has but for the records below
the level. -/
structure Quieter (level : Level) (c full : Console) : Prop where
  written : c.written = full.written.filter (·.writtenAt level)
  stage : c.stage = full.stage
  unread : c.unread = full.unread

variable {read : Reader} {words : List String} {level : Level} {c full : Console}

theorem foldl_write (level : Level) (events written : List Event) :
    events.foldl (write level) written = written ++ events.filter (·.writtenAt level) := by
  induction events generalizing written with
  | nil => rw [List.filter_nil, List.append_nil]; rfl
  | cons e events ih =>
    rw [List.foldl_cons, ih, write]
    split
    · next h => rw [List.filter_cons_of_pos h, List.append_assoc]; rfl
    · next h => rw [List.filter_cons_of_neg h]

theorem writtenAt_debug (e : Event) : e.writtenAt .debug = true := by
  cases e with
  | shown => rfl
  | logged r => exact decide_eq_true (Nat.zero_le r.level.rank)

/-- The lowest level drops nothing, so what is dropped can be dropped later. -/
theorem filter_foldl_write (level : Level) (events written : List Event) :
    (events.foldl (write .debug) written).filter (·.writtenAt level) =
      events.foldl (write level) (written.filter (·.writtenAt level)) := by
  have hall : events.filter (·.writtenAt .debug) = events := List.filter_eq_self.2 fun e _ => writtenAt_debug e
  rw [foldl_write, foldl_write, hall, List.filter_append]

namespace Quieter

theorem start (read : Reader) (file : Option String) (words : List String) (level : Level) (replies : List String) :
    Quieter level (start read file words level replies) (start read file words .debug replies) where
  written := (filter_foldl_write level _ []).symm
  stage := rfl
  unread := rfl

/-- A step does the same to both, and drops the same records from what it writes. -/
theorem step (h : Quieter level c full) : Quieter level (step read words level c) (step read words .debug full) := by
  unfold Console.step
  rw [h.stage, h.unread, h.written]
  split
  · exact h
  · next prompt _ _ => exact ⟨(filter_foldl_write level [.shown prompt] full.written).symm, rfl, rfl⟩
  · exact ⟨(filter_foldl_write level _ full.written).symm, rfl, rfl⟩

theorem moment (read : Reader) (file : Option String) (words : List String) (level : Level)
    (replies : List String) (n : Nat) :
    Quieter level (moment read file words level replies n) (moment read file words .debug replies n) := by
  induction n with
  | zero => exact .start read file words level replies
  | succ n ih =>
    rw [Console.moment, Console.moment, Function.iterate_succ_apply', Function.iterate_succ_apply']
    exact ih.step

theorem output (h : Quieter level c full) : c.output = full.output := by
  rw [Console.output, h.written, output_filter]; rfl

theorem records (h : Quieter level c full) : c.records = full.records.filter (·.shownAt level) := by
  rw [Console.records, h.written, records_filter]; rfl

end Quieter

theorem step_over (read : Reader) (words : List String) (level : Level) (written : List Event) (status : Status)
    (unread : List String) :
    step read words level ⟨written, .over status, unread⟩ = ⟨written, .over status, unread⟩ := rfl

section

variable {stage : Stage} {prompt : String} (h : stage.prompt? = some prompt) (written : List Event)
include h

theorem step_end :
    step read words level ⟨written, stage, []⟩ = ⟨write level written (.shown prompt), .over stage.status, []⟩ := by
  simp only [step, h]

theorem step_reply (reply : String) (replies : List String) :
    step read words level ⟨written, stage, reply :: replies⟩ =
      ⟨(.shown prompt :: (stage.react read words reply).1).foldl (write level) written,
        (stage.react read words reply).2, replies⟩ := by
  simp only [step, h]

end

/-- As many steps as there are replies, and one for the end, and the session is over. -/
theorem iterate_step (replies : List String) (stage : Stage) (written : List Event) :
    (step read words level)^[replies.length + 1] ⟨written, stage, replies⟩ =
      let t := converse read words stage replies
      ⟨t.events.foldl (write level) written, .over t.status, t.unread⟩ := by
  -- each step takes one reply, unless the session is over before
  induction replies generalizing stage written with
  | nil =>
    rcases stage.eq_over_or_prompt? with ⟨status, rfl⟩ | ⟨prompt, hprompt⟩
    · rw [converse_over]; rfl
    · rw [converse_nil hprompt]; exact step_end hprompt written
  | cons reply replies ih =>
    rcases stage.eq_over_or_prompt? with ⟨status, rfl⟩ | ⟨prompt, hprompt⟩
    · rw [converse_over]
      exact Function.iterate_fixed (step_over ..) _
    · rw [List.length_cons, Function.iterate_succ_apply, step_reply hprompt, ih, converse_cons hprompt]
      simp only [Transcript.after, List.foldl_append]

/-- In the end a console has done what the session does. -/
theorem moment_eq_session (read : Reader) (file : Option String) (words : List String) (level : Level)
    (replies : List String) :
    moment read file words level replies (replies.length + 1) =
      let t := session read ⟨file, words, some level⟩ replies
      ⟨t.events.filter (·.writtenAt level), .over t.status, t.unread⟩ := by
  have hevents : (session read ⟨file, words, some level⟩ replies).events.filter (·.writtenAt level) =
      (session read ⟨file, words, some level⟩ replies).events.foldl (write level) [] :=
    (foldl_write level _ []).symm
  rw [moment, start]
  dsimp only
  rw [iterate_step, hevents]
  simp only [session, Transcript.after, List.foldl_append]

end Console

theorem worded_converse (read : Reader) (words : List String) (replies : List String) (stage : Stage) :
    ∀ r, .logged r ∈ (converse read words stage replies).events → Worded r := by
  intro r hr
  induction replies generalizing stage with
  | nil =>
    rcases stage.eq_over_or_prompt? with ⟨status, rfl⟩ | ⟨prompt, hprompt⟩
    · rw [converse_over] at hr; cases hr
    · rw [converse_nil hprompt] at hr; cases List.mem_singleton.1 hr
  | cons reply replies ih =>
    rcases stage.eq_over_or_prompt? with ⟨status, rfl⟩ | ⟨prompt, hprompt⟩
    · rw [converse_over] at hr; cases hr
    · rw [converse_cons hprompt, Transcript.after, List.mem_append, List.mem_cons] at hr
      rcases hr with (heq | hr) | hr
      · cases heq
      · exact worded_react _ _ _ _ hr
      · exact ih _ hr

theorem worded_session (read : Reader) (options : Options) (replies : List String) :
    ∀ r ∈ (session read options replies).records, Worded r := by
  intro r hr
  obtain ⟨e, he, heq⟩ := List.mem_filterMap.1 hr
  cases e with
  | shown => cases heq
  | logged r' =>
    cases heq
    rcases List.mem_append.1 he with he | he
    · exact worded_start _ _ he
    · exact worded_converse _ _ _ _ _ he

section

variable {file : Option String} {words args args' : List String} {level level' : Level}

/-- Two runs that differ in their level do the same at every moment, and each logs what it would at the lowest
level but for the records that are below its own. -/
theorem run_levels (hargs : Request.parse args = .ok (.run ⟨file, words, some level⟩))
    (hargs' : Request.parse args' = .ok (.run ⟨file, words, some level'⟩)) (read : Reader)
    (input : String) :
    let replies := (Text.replies input).map Text.trim
    let console (l : Level) := Console.moment read file words l replies
    let last := replies.length + 1
    (run read args input).status = (run read args' input).status ∧
    (run read args input).output = (run read args' input).output ∧
    (∀ n, (console level n).stage = (console level' n).stage ∧ (console level n).output = (console level' n).output ∧
      (console level n).unread = (console level' n).unread ∧
      (console level n).records = (console .debug n).records.filter fun r => level.rank ≤ r.level.rank) ∧
    (console level last).stage = .over (run read args input).status ∧
    (console level last).output = (run read args input).output ∧
    (run read args input).log = String.join ((console level last).records.map Record.line) ∧
    ∀ r ∈ (console .debug last).records, Worded r := by
  intro replies console last
  have hquieter (l : Level) (n : Nat) : Console.Quieter l (console l n) (console .debug n) :=
    .moment read file words l replies n
  let t := session read ⟨file, words, none⟩ replies
  have hlast (l : Level) : console l last = ⟨t.events.filter (·.writtenAt l), .over t.status, t.unread⟩ :=
    Console.moment_eq_session read file words l replies
  have hrun := run_eq hargs rfl read input
  have hrun' := run_eq hargs' rfl read input
  refine ⟨by rw [hrun, hrun']; rfl, by rw [hrun, hrun']; rfl, fun n => ?_, ?_, ?_, ?_, ?_⟩
  · exact ⟨(hquieter level n).stage.trans (hquieter level' n).stage.symm,
      (hquieter level n).output.trans (hquieter level' n).output.symm,
      (hquieter level n).unread.trans (hquieter level' n).unread.symm, (hquieter level n).records⟩
  · rw [hlast, hrun]; rfl
  · rw [hlast, hrun, Console.output, output_filter]; rfl
  · rw [hlast, hrun, Console.records, records_filter]; rfl
  · rw [hlast, Console.records, records_filter]
    exact fun r hr => worded_session _ _ _ r (List.mem_of_mem_filter hr)

/-- A state that is never reached is noted at one level and not at the other. -/
theorem run_levels_unreached :
    ∃ store : Store,
      let outcome (args : List String) := run store.read args "none.dfa\nloop.dfa\na\nquit\nb\n"
      (outcome ["--log-level", "INFO"]).status = (outcome ["--log-level=CRITICAL"]).status ∧
      (outcome ["--log-level", "INFO"]).output = (outcome ["--log-level=CRITICAL"]).output ∧
      (outcome ["--log-level", "INFO"]).log = "ERROR: The specified file didn't exist!\n" ++
        "INFO: Read 2 states over alphabet a from loop.dfa\n" ++ "INFO: States never reached from state 0: [7]\n" ∧
      (outcome ["--log-level=CRITICAL"]).log = "" := by
  let store : Store := ⟨[], .ofList [(["loop.dfa"], Text.Utf8.encode "0\n0 a 0\n7 a 0\n".toList)]⟩
  have hinfo : Request.parse ["--log-level", "INFO"] = .ok (.run ⟨none, [], some .info⟩) := by decide +kernel
  have hcritical : Request.parse ["--log-level=CRITICAL"] = .ok (.run ⟨none, [], some .critical⟩) := by
    decide +kernel
  obtain ⟨hstatus, houtput, -⟩ :=
    run_levels hinfo hcritical store.read "none.dfa\nloop.dfa\na\nquit\nb\n"
  exact ⟨store, hstatus, houtput, by decide +kernel, by decide +kernel⟩

end

end Acceptor.Command
