import Acceptor.Command.Session
import Acceptor.Proofs.Batch
import Acceptor.Proofs.FirstFault

/-!
# Verdicts on the command line

What is read at a path cannot be read as a description, or describes no automaton, or describes one
(`Loaded`), and `load` tells the three cases apart as long as no numeral has too many digits
(`loaded_load`). With words among the arguments a run of the program is over behind the file: the first two
cases end it with their own status and nothing shown, and in the third it shows one verdict for each word
(`run_words`).
-/

namespace Acceptor

/-- No word of the lines is a numeral with more digits than are read. -/
def Text.ShortNumerals (lines : List RawLine) : Prop :=
  ∀ line, .ok line ∈ lines → ∀ token ∈ words line, ∀ n, Numeral.Denotes token.toList n →
    (Numeral.unsigned token.toList).length ≤ Numeral.maxDigits

theorem Text.shortNumerals_encode {s : String}
    (h : ∀ line ∈ textLines s.toList, ∀ token ∈ words (String.ofList line),
      (Numeral.unsigned token.toList).length ≤ Numeral.maxDigits) :
    ShortNumerals (byteLines (Utf8.encode s.toList)) := by
  intro line hline token htoken n _
  rw [byteLines_encode] at hline
  obtain ⟨l, hl, heq⟩ := List.mem_map.1 hline
  cases heq
  exact h l hl token htoken

theorem Builder.ofSource_bytes_ne_tooLong {bytes : List UInt8}
    (h : Text.ShortNumerals (Text.byteLines bytes)) (digits : Nat) :
    ofSource (.bytes bytes) ≠ .error (.numeralTooLong digits) := by
  intro herror
  let pieces := (bytes.splitOnP (· == 0x0A)).map Piece.bytes
  have hraw : pieces.map Piece.raw = Text.byteLines bytes := by rw [List.map_map]; rfl
  have hlines : ofLines (pieces.map Piece.raw) = .error (.numeralTooLong digits) := by
    rw [hraw]; exact herror
  rcases ofLines_raw_eq_error hlines with hfault | ⟨before, p, after, hp, hown⟩
  · cases hfault
  · obtain ⟨s, hs, token, htoken, hrefused⟩ := hown.exists_token
    have hmem : .ok s ∈ Text.byteLines bytes := by
      rw [← hraw, hp]
      exact List.mem_map.2 ⟨p, by simp, Piece.raw_eq_ok_iff.2 hs⟩
    cases hrefused with
    | tooLong hn hlong => exact absurd (h s hmem token htoken _ hn) (Nat.not_le.2 hlong)

theorem Store.contents_ne_tooLong (s : Store) (path : String) (digits : Nat) :
    s.contents path ≠ .error (.numeralTooLong digits) := by
  unfold contents
  repeat' split
  all_goals simp

theorem Store.read_ne_tooLong (s : Store) (path : String) (digits : Nat) :
    s.read path ≠ .error (.numeralTooLong digits) := by
  simp only [read]
  split
  · simp
  · split
    · exact s.contents_ne_tooLong path digits
    · simp
    · simp

/-- The one fault that is not logged needs a numeral that is too long. -/
theorem Builder.ofFile_ne_tooLong {s : Store} {path : String}
    (h : ∀ bytes, s.read path = .ok bytes → Text.ShortNumerals (Text.byteLines bytes)) (digits : Nat) :
    ofFile s path ≠ .error (.numeralTooLong digits) := by
  intro herror
  rcases Except.bind_eq_error_iff.1 herror with hread | ⟨bytes, hread, hsource⟩
  · exact s.read_ne_tooLong path digits hread
  · exact ofSource_bytes_ne_tooLong (h bytes hread) digits hsource

namespace Command

/-- What becomes of a description that is read: the program ends, or it has an automaton. -/
inductive Loaded (read : Except Fault Builder) : Except Status Automaton → Prop
  | unreadable {fault : Fault} (h : read = .error fault) : Loaded read (.error (.exit 1))
  | notAutomaton {b : Builder} {f : Failure} (hb : read = .ok b) (hf : b.freeze.2 = .error (.invalid f)) :
    Loaded read (.error (.exit 2))
  | automaton {b : Builder} {d : Automaton} (hb : read = .ok b) (hd : b.freeze.2 = .ok d) :
    Loaded read (.ok d)

variable {words : List String} {path : String} {contents : Except Fault (List UInt8)}

theorem loaded_load
    (h : ∀ digits, (contents.bind fun bytes => Builder.ofSource (.bytes bytes)) ≠
      .error (.numeralTooLong digits)) :
    Loaded (contents.bind fun bytes => Builder.ofSource (.bytes bytes)) (load path contents).2 := by
  unfold load
  split
  · next digits hread => exact absurd hread (h digits)
  · next hread => exact .unreadable hread
  · next b hread =>
    obtain ⟨bytes, -, hb⟩ := Except.bind_eq_ok_iff.1 hread
    obtain ⟨hspent, rows, hrows⟩ := Builder.exists_holds_of_ofLines hb
    show Loaded _ (freeze b).2
    unfold freeze
    cases hfreeze : b.freeze.2 with
    | ok d => exact .automaton hread hfreeze
    | error fault =>
      obtain ⟨f, rfl, -⟩ := (hrows.freeze_eq_error_iff hspent).1 hfreeze
      exact .notAutomaton hread hfreeze

theorem output_load (path : String) (contents : Except Fault (List UInt8)) :
    String.join ((load path contents).1.map Event.output) = "" := by
  have hfreeze (b : Builder) : String.join ((freeze b).1.map Event.output) = "" := by
    unfold freeze unreachedNote
    repeat' split
    all_goals rfl
  unfold load
  split
  · rfl
  · rfl
  · next b _ =>
    show String.join ("" :: (freeze b).1.map Event.output) = ""
    rw [String.join_cons, hfreeze]; rfl

theorem output_testAll (d : Automaton) (words : List String) :
    String.join ((testAll d words).map Event.output) =
      String.join (words.map fun w => batchVerdict (d.accepts w)) := by
  rw [testAll, Automaton.acceptsAll_eq, List.map_map, List.map_map]; rfl

/-- How a run on words ends behind the file, and what it shows. -/
def ending (words : List String) : Except Status Automaton → Status × String
  | .error status => (status, "")
  | .ok d => (.exit 0, String.join (words.map fun w => batchVerdict (d.accepts w)))

theorem ofFile_over (hwords : words ≠ []) (path : String) (contents : Except Fault (List UInt8)) :
    ∃ events, Stage.ofFile words path contents = (events, .over (ending words (load path contents).2).1) ∧
      String.join (events.map Event.output) = (ending words (load path contents).2).2 := by
  have hload := output_load path contents
  unfold Stage.ofFile
  generalize load path contents = loaded at hload ⊢
  obtain ⟨events, status | d⟩ := loaded
  · exact ⟨events, rfl, hload⟩
  · refine ⟨events ++ testAll d words, if_neg hwords, ?_⟩
    rw [List.map_append, String.join_append, hload, output_testAll]; rfl

/-- A session that is over asks for nothing. -/
theorem converse_over (read : Reader) (words : List String) (status : Status) (replies : List String) :
    converse read words (.over status) replies = ⟨[], status, replies⟩ := by
  cases replies <;> rfl

section

variable {read : Reader} {options : Options} {events : List Event} {status : Status}

theorem session_of_over (h : Stage.start read options = (events, .over status)) (replies : List String) :
    session read options replies = ⟨events, status, replies⟩ := by
  simp [session, h, converse_over, Transcript.after]

theorem run_of_over {args : List String} {level : Level} (hargs : Request.parse args = .ok (.run options))
    (hlevel : options.level = some level) (h : Stage.start read options = (events, .over status))
    (input : String) :
    (run read args input).status = status ∧
      (run read args input).output = String.join (events.map Event.output) := by
  simp [run, hargs, hlevel, session_of_over h, Transcript.outcome]

theorem start_of_file {name : String} (hfile : options.file = some name) (hname : name ≠ "") :
    Stage.start read options =
      Stage.ofFile options.strings (Path.ofText name).toText (read (Path.ofText name).toText) := by
  unfold Stage.start
  split
  · next h => rw [hfile] at h; cases h
  · next h => rw [hfile] at h; cases h; exact absurd rfl hname
  · next h => rw [hfile] at h; cases h; rfl

end

/-- A run on words reads one file, at the path that its name stands for, and no reply. -/
theorem run_words {store : Store} {args words : List String} {name : String} {level : Level}
    (hargs : Request.parse args = .ok (.run ⟨some name, words, some level⟩)) (hname : name ≠ "")
    (hwords : words ≠ [])
    (hshort : ∀ bytes, store.read (Path.ofText name).toText = .ok bytes →
      Text.ShortNumerals (Text.byteLines bytes)) :
    let path := (Path.ofText name).toText
    let unreadable := ∃ fault, Builder.ofFile store path = .error fault
    let notAutomaton := ∃ b f, Builder.ofFile store path = .ok b ∧ b.freeze.2 = .error (.invalid f)
    (∀ input,
      let outcome := run store.read args input
      (outcome.status = .exit 1 ∧ outcome.output = "" ↔ unreadable) ∧
      (outcome.status = .exit 2 ∧ outcome.output = "" ↔ notAutomaton) ∧
      (¬ unreadable → ¬ notAutomaton → ∃ d, Automaton.load store path = .ok d ∧ outcome.status = .exit 0 ∧
        outcome.output = String.join (words.map fun w => if d.accepts w then "accept\n" else "reject\n"))) ∧
    ∀ replies, (session store.read ⟨some name, words, some level⟩ replies).unread = replies := by
  intro path unreadable notAutomaton
  -- with words to test the session is over behind the file, before any reply is asked for
  obtain ⟨events, hover, hevents⟩ := ofFile_over hwords path (store.read path)
  have hstart : Stage.start store.read ⟨some name, words, some level⟩ = (events, .over _) :=
    (start_of_file rfl hname).trans hover
  have hloaded : Loaded (Builder.ofFile store path) (load path (store.read path)).2 :=
    loaded_load fun digits => Builder.ofFile_ne_tooLong hshort digits
  refine ⟨fun input => ?_, fun replies => by rw [session_of_over hstart]⟩
  obtain ⟨hstatus, houtput⟩ := run_of_over hargs rfl hstart input
  rw [hevents] at houtput
  simp only [hstatus, houtput]
  generalize (load path (store.read path)).2 = loaded at hloaded
  cases hloaded with
  | unreadable h => simp [ending, unreadable, notAutomaton, h]
  | notAutomaton hb hf => simp [ending, unreadable, notAutomaton, hb, hf]
  | @automaton b d hb hd =>
    have hautomaton : Automaton.load store path = .ok d := by rw [Automaton.load, hb]; exact hd
    refine ⟨by simp [ending, unreadable, hb], by simp [ending, notAutomaton, hb, hd], fun _ _ => ?_⟩
    exact ⟨d, hautomaton, rfl, rfl⟩

/-- A file that is named in a roundabout way, one in which a state is missing, and none. -/
theorem run_words_each :
    ∃ store : Store, ∀ input,
      let outcome (args : List String) := run store.read args input
      let batch := ["./ab.dfa", "-sba", "--string=b", "-s", ""]
      (outcome batch).status = .exit 0 ∧ (outcome batch).output = "accept\nreject\nreject\n" ∧
      (outcome ["hole.dfa", "-s", "a"]).status = .exit 2 ∧
      (outcome ["none.dfa", "-s", "a"]).status = .exit 1 := by
  let store : Store := ⟨[], .ofList
    [(["ab.dfa"], Text.Utf8.encode "1\n0 a 1\n0 b 0\n1 a 1\n1 b 0\n".toList),
      (["hole.dfa"], Text.Utf8.encode "1\n0 a 1\n".toList)]⟩
  have hab : store.read "ab.dfa" = .ok (Text.Utf8.encode "1\n0 a 1\n0 b 0\n1 a 1\n1 b 0\n".toList) :=
    Except.toOption_eq_some_iff.1 (by decide +kernel)
  have hhole : store.read "hole.dfa" = .ok (Text.Utf8.encode "1\n0 a 1\n".toList) :=
    Except.toOption_eq_some_iff.1 (by decide +kernel)
  obtain ⟨fault, hnone⟩ : ∃ fault, store.read "none.dfa" = .error fault :=
    Except.toOption_eq_none_iff.1 (by decide +kernel)
  have hbatch : Request.parse ["./ab.dfa", "-sba", "--string=b", "-s", ""] =
      .ok (.run ⟨some "./ab.dfa", ["ba", "b", ""], some .warning⟩) := by decide +kernel
  have hone (name : String) (h : name = "hole.dfa" ∨ name = "none.dfa") :
      Request.parse [name, "-s", "a"] = .ok (.run ⟨some name, ["a"], some .warning⟩) := by
    rcases h with rfl | rfl <;> decide +kernel
  obtain ⟨hverdicts, -⟩ := run_words hbatch (by decide) (by decide) fun bytes hbytes => by
    cases hab.symm.trans hbytes; exact Text.shortNumerals_encode (by decide +kernel)
  obtain ⟨hinvalid, -⟩ := run_words (hone _ (.inl rfl)) (by decide) (by decide) fun bytes hbytes => by
    cases hhole.symm.trans hbytes; exact Text.shortNumerals_encode (by decide +kernel)
  obtain ⟨hmissing, -⟩ := run_words (hone _ (.inr rfl)) (by decide) (by decide) fun bytes hbytes => by
    cases hnone.symm.trans hbytes
  refine ⟨store, fun input => ?_⟩
  obtain ⟨b, d, hb, hd, hba, hb', hempty⟩ : ∃ b d, Builder.ofFile store "ab.dfa" = .ok b ∧
      b.freeze.2 = .ok d ∧ d.accepts "ba" = true ∧ d.accepts "b" = false ∧ d.accepts "" = false := by
    rw [Builder.ofFile, hab]
    exact ⟨_, _, rfl, rfl, rfl, rfl, rfl⟩
  obtain ⟨c, hc, hcd⟩ : ∃ c, Builder.ofFile store "hole.dfa" = .ok c ∧
      c.freeze.2 = .error (.invalid .danglingTarget) := by
    rw [Builder.ofFile, hhole]
    exact ⟨_, rfl, rfl⟩
  have hload : Automaton.load store "ab.dfa" = .ok d := by rw [Automaton.load, hb]; exact hd
  have hfault : Builder.ofFile store "none.dfa" = .error fault := by rw [Builder.ofFile, hnone]; rfl
  obtain ⟨-, -, hok⟩ := hverdicts input
  obtain ⟨d', hd', hstatus, houtput⟩ := hok (fun ⟨_, h⟩ => by cases hb.symm.trans h) fun ⟨_, _, h, hf⟩ => by
    cases hb.symm.trans h; cases hd.symm.trans hf
  cases hload.symm.trans hd'
  refine ⟨hstatus, ?_, ((hinvalid input).2.1.2 ⟨c, _, hc, hcd⟩).1, ((hmissing input).1.2 ⟨fault, hfault⟩).1⟩
  rw [houtput]; simp [hba, hb', hempty]

end Command

end Acceptor
