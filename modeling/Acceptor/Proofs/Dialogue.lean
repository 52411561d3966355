import Acceptor.Proofs.PlainPath
import Acceptor.Proofs.Replies
import Acceptor.Proofs.Verdicts
import Mathlib.Data.String.Basic

/-!
# Sessions at the prompt

A session without a file goes on by its replies (`Dialogue`). Those that name no regular file are passed over;
the first that names one is loaded, and then the replies up to `quit`, or up to the end, are answered as words
(`Answered`). Each reply takes one prompt, and so does the end of the input. The one thing besides that ends a
session is a reply that is no path at all because it is too long (`Opened.tooLong`); it is not passed over
but escapes (`run_escapes_longName`).
-/

namespace Acceptor

/-- What is read is in one of the files. -/
theorem Store.mem_values_of_read {s : Store} {path : String} {bytes : List UInt8}
    (h : s.read path = .ok bytes) : bytes ∈ s.files.values := by
  have hcontents : s.contents path = .ok bytes := by
    simp only [read] at h
    split at h
    · cases h
    · split at h
      · exact h
      · cases h
      · cases h
  rw [OrderedMap.mem_values_iff]
  unfold contents at hcontents
  repeat' split at hcontents
  all_goals cases hcontents
  next name _ _ _ hfind => exact ⟨name, hfind⟩

namespace Command

/-- The path that a reply stands for. -/
def pathOf (reply : String) : String := (Path.ofText reply).toText

/-- There is a regular file at the path that the reply stands for. -/
def NamesFile (store : Store) (reply : String) : Prop := ∃ bytes, store.read (pathOf reply) = .ok bytes

/-- There is none, but one could be looked for. -/
def NamesNone (store : Store) (reply : String) : Prop :=
  ¬ NamesFile store reply ∧ ∀ path, store.read (pathOf reply) ≠ .error (.nameTooLong path)

def filePrompts (count : Nat) : String := String.join (List.replicate count "Enter the DFA file name: ")

def misses (count : Nat) : List Record := List.replicate count ⟨.error, "The specified file didn't exist!"⟩

/-- What loading the file logs. -/
def loadRecords (store : Store) (reply : String) : List Record :=
  (load (pathOf reply) (store.read (pathOf reply))).1.filterMap Event.record?

/-- A prompt, a verdict and a blank line for each word. -/
def answers (d : Automaton) (asked : List String) : String :=
  String.join (asked.map fun reply => "Enter string ['quit' to exit]: " ++
    (if d.accepts reply then "That line is valid with this DFA!\n" else "That line isn't valid with this DFA.\n") ++
    "\n")

/-- The replies up to the first `quit` are answered; what stands behind it is not read. The reply that ends
the loop, or the end of the replies, meets a prompt as well. -/
inductive Answered (d : Automaton) : List String → String → List String → Prop
  | ended {asked : List String} (h : "quit" ∉ asked) :
    Answered d asked (answers d asked ++ "Enter string ['quit' to exit]: ") []
  | quit {asked : List String} (h : "quit" ∉ asked) (unread : List String) :
    Answered d (asked ++ "quit" :: unread) (answers d asked ++ "Enter string ['quit' to exit]: ") unread

/-- What a reply that is not passed over leads to, with these replies behind it: what is shown, what is logged,
how the session ends and which replies are left. -/
inductive Opened (store : Store) (name : String) :
    List String → String → List Record → Status → List String → Prop
  | tooLong {path : String} (h : store.read (pathOf name) = .error (.nameTooLong path)) (later : List String) :
    Opened store name later "" [] (.escaped (.nameTooLong path)) later
  | unreadable {fault : Fault} (hname : NamesFile store name)
    (hread : Builder.ofFile store (pathOf name) = .error fault) (later : List String) :
    Opened store name later "" (loadRecords store name) (.exit 1) later
  | notAutomaton {b : Builder} {f : Failure} (hname : NamesFile store name)
    (hread : Builder.ofFile store (pathOf name) = .ok b) (hfreeze : b.freeze.2 = .error (.invalid f))
    (later : List String) : Opened store name later "" (loadRecords store name) (.exit 2) later
  | tested {d : Automaton} {later unread : List String} {output : String} (hname : NamesFile store name)
    (hload : Automaton.load store (pathOf name) = .ok d) (h : Answered d later output unread) :
    Opened store name later output (loadRecords store name) (.exit 0) unread

/-- How a session without a file goes on these replies. -/
inductive Dialogue (store : Store) : List String → String → List Record → Status → List String → Prop
  | noFile {skipped : List String} (hskipped : ∀ reply ∈ skipped, NamesNone store reply) :
    Dialogue store skipped (filePrompts (skipped.length + 1)) (misses skipped.length) (.exit 0) []
  | opened {skipped later unread : List String} {name output : String} {records : List Record} {status : Status}
    (hskipped : ∀ reply ∈ skipped, NamesNone store reply)
    (h : Opened store name later output records status unread) :
    Dialogue store (skipped ++ name :: later) (filePrompts (skipped.length + 1) ++ output)
      (misses skipped.length ++ records) status unread

/-! ### What a transcript shows -/

def Transcript.output (t : Transcript) : String := String.join (t.events.map Event.output)

section

variable (events : List Event) (t : Transcript)

theorem output_after : (t.after events).output = String.join (events.map Event.output) ++ t.output := by
  rw [Transcript.output, Transcript.after, List.map_append, String.join_append]; rfl

theorem records_after : (t.after events).records = events.filterMap Event.record? ++ t.records :=
  List.filterMap_append

end

theorem outcome_eq (t : Transcript) (level : Level) :
    t.outcome level = ⟨t.status, t.output, String.join ((t.records.filter (·.shownAt level)).map Record.line)⟩ :=
  rfl

/-! ### One reply -/

theorem Stage.eq_over_or_prompt? (stage : Stage) :
    (∃ status, stage = .over status) ∨ ∃ prompt, stage.prompt? = some prompt := by
  rcases stage with _ | d | status
  · exact .inr ⟨filePrompt, rfl⟩
  · exact .inr ⟨wordPrompt, rfl⟩
  · exact .inl ⟨status, rfl⟩

section

variable {stage : Stage} {prompt : String} (h : stage.prompt? = some prompt) (read : Reader) (words : List String)
include h

theorem converse_nil : converse read words stage [] = ⟨[.shown prompt], stage.status, []⟩ := by
  simp [converse, h]

theorem converse_cons (reply : String) (replies : List String) :
    converse read words stage (reply :: replies) =
      (converse read words (stage.react read words reply).2 replies).after
        (.shown prompt :: (stage.react read words reply).1) := by
  simp [converse, h]

end

/-! ### Words -/

theorem answers_cons (d : Automaton) (reply : String) (asked : List String) :
    answers d (reply :: asked) = wordPrompt ++ verdict (d.accepts reply) ++ answers d asked := by
  rw [answers, List.map_cons, String.join_cons]
  cases d.accepts reply <;> rfl

theorem Answered.cons {d : Automaton} {reply output : String} {replies unread : List String}
    (hreply : reply ≠ "quit") (h : Answered d replies output unread) :
    Answered d (reply :: replies) (wordPrompt ++ verdict (d.accepts reply) ++ output) unread := by
  have hnot {asked : List String} (h : "quit" ∉ asked) : "quit" ∉ reply :: asked :=
    fun hmem => (List.mem_cons.1 hmem).elim (fun heq => hreply heq.symm) h
  cases h with
  | ended h =>
    rw [← String.append_assoc, ← answers_cons]; exact .ended (hnot h)
  | quit h unread =>
    rw [← String.append_assoc, ← answers_cons]; exact .quit (hnot h) unread

theorem converse_word (read : Reader) (words : List String) (d : Automaton) (replies : List String) :
    let t := converse read words (.word d) replies
    Answered d replies t.output t.unread ∧ t.records = [] ∧ t.status = .exit 0 := by
  have hprompt : (Stage.word d).prompt? = some wordPrompt := rfl
  induction replies with
  | nil => exact ⟨.ended List.not_mem_nil, rfl, rfl⟩
  | cons reply replies ih =>
    obtain ⟨hanswered, hrecords, hstatus⟩ := ih
    by_cases hquit : reply = "quit"
    · have hreact : Stage.react read words reply (.word d) = ([], .over (.exit 0)) := if_pos hquit
      rw [converse_cons hprompt, hreact, converse_over, hquit]
      exact ⟨.quit List.not_mem_nil replies, rfl, rfl⟩
    · have hreact : Stage.react read words reply (.word d) = ([.shown (verdict (d.accepts reply))], .word d) :=
        if_neg hquit
      simp only [converse_cons hprompt, hreact, output_after, records_after]
      refine ⟨?_, hrecords, hstatus⟩
      exact hanswered.cons hquit

/-! ### File names -/

section

variable {store : Store} {reply : String} {replies : List String}

theorem react_of_namesFile (words : List String) (h : NamesFile store reply) :
    Stage.react store.read words reply .file = Stage.ofFile words (pathOf reply) (store.read (pathOf reply)) := by
  obtain ⟨bytes, hread⟩ := h
  have hread' : store.read (Path.ofText reply).toText = .ok bytes := hread
  simp [Stage.react, pathOf, hread']

/-- Whatever is in a store may be read. -/
theorem read_ne_denied (store : Store) (path denied : String) : store.read path ≠ .error (.denied denied) := by
  intro h
  unfold Store.read Store.contents at h
  grind

theorem react_of_namesNone (words : List String) (h : NamesNone store reply) :
    Stage.react store.read words reply .file = ([missingFile], .file) := by
  unfold Stage.react
  dsimp only
  split
  · next bytes hread => exact absurd ⟨bytes, hread⟩ h.1
  · next path hread => exact absurd hread (h.2 path)
  · next path hread => exact absurd hread (read_ne_denied store _ path)
  · rfl

theorem react_of_tooLong (words : List String) {path : String}
    (h : store.read (pathOf reply) = .error (.nameTooLong path)) :
    Stage.react store.read words reply .file = ([], .over (.escaped (.nameTooLong path))) := by
  have h' : store.read (Path.ofText reply).toText = .error (.nameTooLong path) := h
  simp [Stage.react, h']

theorem namesFile_or (store : Store) (reply : String) :
    NamesFile store reply ∨ NamesNone store reply ∨
      ∃ path, store.read (pathOf reply) = .error (.nameTooLong path) := by
  by_cases hfile : NamesFile store reply
  · exact .inl hfile
  by_cases hlong : ∃ path, store.read (pathOf reply) = .error (.nameTooLong path)
  · exact .inr (.inr hlong)
  · exact .inr (.inl ⟨hfile, fun path h => hlong ⟨path, h⟩⟩)

theorem filePrompts_succ (count : Nat) : filePrompts (count + 1) = filePrompt ++ filePrompts count := by
  rw [filePrompts, List.replicate_succ, String.join_cons]; rfl

/-- A reply that names no file takes a prompt and logs an error, and the session goes on behind it. -/
theorem Dialogue.cons {output : String} {records : List Record} {status : Status} {unread : List String}
    (hreply : NamesNone store reply) (h : Dialogue store replies output records status unread) :
    Dialogue store (reply :: replies) (filePrompt ++ output)
      (⟨.error, "The specified file didn't exist!"⟩ :: records) status unread := by
  have hskipped {skipped : List String} (h : ∀ reply ∈ skipped, NamesNone store reply) :
      ∀ reply' ∈ reply :: skipped, NamesNone store reply' := List.forall_mem_cons.2 ⟨hreply, h⟩
  cases h with
  | noFile h => rw [← filePrompts_succ]; exact .noFile (hskipped h)
  | opened h hopened =>
    rw [← String.append_assoc, ← filePrompts_succ]; exact .opened (hskipped h) hopened

theorem Dialogue.of_opened {name output : String} {later unread : List String} {records : List Record}
    {status : Status} (h : Opened store name later output records status unread) :
    Dialogue store (name :: later) (filePrompt ++ output) records status unread := by
  have hone : filePrompts 1 = filePrompt := by rw [filePrompts_succ]; exact String.append_empty
  rw [← hone]
  have hskipped : ∀ reply ∈ [], NamesNone store reply := fun _ hmem => absurd hmem List.not_mem_nil
  exact .opened hskipped h

theorem ofFile_nil (path : String) (contents : Except Fault (List UInt8)) :
    Stage.ofFile [] path contents =
      ((load path contents).1, match (load path contents).2 with
        | .error status => .over status
        | .ok d => .word d) := by
  unfold Stage.ofFile
  split <;> rename_i h <;> rw [h]; rfl

theorem output_over (status : Status) (unread : List String) : (Transcript.mk [] status unread).output = "" := rfl

theorem records_over (status : Status) (unread : List String) : (Transcript.mk [] status unread).records = [] := rfl

theorem opened_converse {name : String} (hname : NamesFile store name)
    (hshort : ∀ bytes, store.read (pathOf name) = .ok bytes → Text.ShortNumerals (Text.byteLines bytes))
    (later : List String) :
    let t := converse store.read [] (Stage.react store.read [] name .file).2 later
    Opened store name later t.output (loadRecords store name ++ t.records) t.status t.unread := by
  have hloaded : Loaded (Builder.ofFile store (pathOf name)) (load (pathOf name) (store.read (pathOf name))).2 :=
    loaded_load fun digits => Builder.ofFile_ne_tooLong hshort digits
  rw [react_of_namesFile [] hname, ofFile_nil]
  generalize (load (pathOf name) (store.read (pathOf name))).2 = loaded at hloaded
  intro t
  cases hloaded with
  | unreadable hread =>
    have ht : t = ⟨[], .exit 1, later⟩ := converse_over ..
    rw [ht, output_over, records_over, List.append_nil]
    exact .unreadable hname hread later
  | notAutomaton hread hfreeze =>
    have ht : t = ⟨[], .exit 2, later⟩ := converse_over ..
    rw [ht, output_over, records_over, List.append_nil]
    exact .notAutomaton hname hread hfreeze later
  | @automaton b d hread hfreeze =>
    have hload : Automaton.load store (pathOf name) = .ok d := by rw [Automaton.load, hread]; exact hfreeze
    obtain ⟨hanswered, hrecords, hstatus⟩ := converse_word store.read [] d later
    change Answered d later t.output t.unread at hanswered
    change t.records = [] at hrecords
    change t.status = .exit 0 at hstatus
    rw [hrecords, hstatus, List.append_nil]
    exact .tested hname hload hanswered

theorem dialogue_converse (hshort : ∀ path bytes, store.read path = .ok bytes →
      Text.ShortNumerals (Text.byteLines bytes)) (replies : List String) :
    let t := converse store.read [] .file replies
    Dialogue store replies t.output t.records t.status t.unread := by
  have hprompt : Stage.file.prompt? = some filePrompt := rfl
  induction replies with
  | nil => exact .noFile fun _ hmem => absurd hmem List.not_mem_nil
  | cons reply replies ih =>
    simp only [converse_cons hprompt, output_after, records_after, List.map_cons, String.join_cons]
    rcases namesFile_or store reply with hname | hnone | ⟨path, hlong⟩
    · have hopened := opened_converse hname (hshort _) replies
      have hevents : (Stage.react store.read [] reply .file).1 =
          (load (pathOf reply) (store.read (pathOf reply))).1 := by
        rw [react_of_namesFile [] hname, ofFile_nil]
      have houtput : String.join ((Stage.react store.read [] reply .file).1.map Event.output) = "" := by
        rw [hevents]; exact output_load _ _
      have hrecords : (Stage.react store.read [] reply .file).1.filterMap Event.record? =
          loadRecords store reply := by rw [hevents]; rfl
      rw [houtput, String.append_empty, List.filterMap_cons_none rfl, hrecords]
      exact .of_opened hopened
    · rw [react_of_namesNone [] hnone]
      exact ih.cons hnone
    · rw [react_of_tooLong [] hlong, converse_over]
      exact .of_opened (.tooLong hlong replies)

/-- Only a path that is too long keeps the session from ending by itself. -/
theorem Dialogue.exists_exit {output : String} {records : List Record} {status : Status} {unread : List String}
    (h : Dialogue store replies output records status unread)
    (hshort : ∀ reply ∈ replies, ∀ path, store.read (pathOf reply) ≠ .error (.nameTooLong path)) :
    ∃ code, status = .exit code := by
  cases h with
  | noFile => exact ⟨0, rfl⟩
  | opened _ h =>
    cases h with
    | tooLong hlong => exact absurd hlong (hshort _ (by simp) _)
    | unreadable => exact ⟨1, rfl⟩
    | notAutomaton => exact ⟨2, rfl⟩
    | tested => exact ⟨0, rfl⟩

end

theorem session_of_noFile {read : Reader} {file : Option String} (hfile : file.getD "" = "") (words : List String)
    (level : Option Level) (replies : List String) :
    session read ⟨file, words, level⟩ replies = converse read words .file replies := by
  cases file with
  | none => rfl
  | some name =>
    obtain rfl : name = "" := hfile
    rfl

theorem run_eq {args : List String} {options : Options} {level : Level}
    (hargs : Request.parse args = .ok (.run options)) (hlevel : options.level = some level) (read : Reader)
    (input : String) :
    run read args input = (session read options ((Text.replies input).map Text.trim)).outcome level := by
  simp only [run, hargs, hlevel]

theorem run_of_noFile {read : Reader} {args words : List String} {file : Option String} {level : Level}
    (hargs : Request.parse args = .ok (.run ⟨file, words, some level⟩)) (hfile : file.getD "" = "")
    (input : String) :
    run read args input =
      (converse read words .file ((Text.replies input).map Text.trim)).outcome level := by
  rw [run_eq hargs rfl, session_of_noFile hfile]

/-- A session without a file and without words takes its replies from the lines that are typed, one for each
prompt. -/
theorem run_dialogue {store : Store} {args : List String} {file : Option String} {level : Level}
    (hargs : Request.parse args = .ok (.run ⟨file, [], some level⟩)) (hfile : file.getD "" = "")
    (hshort : ∀ path bytes, store.read path = .ok bytes → Text.ShortNumerals (Text.byteLines bytes))
    (input : String) :
    ∃ (lines : List String) (output : String) (records : List Record) (status : Status) (unread : List String),
      Text.Typed input.toList (lines.map String.toList) ∧
      Dialogue store (lines.map Text.trim) output records status unread ∧
      run store.read args input =
        ⟨status, output, String.join ((records.filter (·.shownAt level)).map Record.line)⟩ ∧
      (session store.read ⟨file, [], some level⟩ (lines.map Text.trim)).unread = unread ∧
      ((∀ line ∈ lines, ∀ path, store.read (pathOf (Text.trim line)) ≠ .error (.nameTooLong path)) →
        ∃ code, status = .exit code) ∧
      ∀ d reply, String.join ((testAll d [reply]).map Event.output) =
        if d.accepts reply then "accept\n" else "reject\n" := by
  let t := converse store.read [] .file ((Text.replies input).map Text.trim)
  have hdialogue : Dialogue store _ t.output t.records t.status t.unread := dialogue_converse hshort _
  refine ⟨Text.replies input, _, _, _, _, Text.typed_iff.2 rfl, hdialogue, ?_, ?_,
    fun hpaths => hdialogue.exists_exit (List.forall_mem_map.2 hpaths), fun d reply => ?_⟩
  · rw [run_of_noFile hargs hfile, outcome_eq]
  · rw [session_of_noFile hfile]
  · rw [output_testAll]; rfl

/-- A name of no file, one of a file, three words and a reply that is not read, with lines ended in two ways. -/
theorem run_dialogue_until_quit :
    ∃ (store : Store) (records : List Record),
      let outcome := run store.read ["--log-level=ERROR"] "none.dfa\r\n ./ab.dfa\nba\r\n\n quit \nb"
      Dialogue store ["none.dfa", "./ab.dfa", "ba", "", "quit", "b"] outcome.output records outcome.status ["b"] ∧
      outcome.output = "Enter the DFA file name: Enter the DFA file name: " ++
        "Enter string ['quit' to exit]: That line is valid with this DFA!\n\n" ++
        "Enter string ['quit' to exit]: That line isn't valid with this DFA.\n\n" ++
        "Enter string ['quit' to exit]: " ∧
      outcome.log = "ERROR: The specified file didn't exist!\n" := by
  let store : Store := ⟨[], .ofList [(["ab.dfa"], Text.Utf8.encode "1\n0 a 1\n0 b 0\n1 a 1\n1 b 0\n".toList)]⟩
  have hshort (path : String) (bytes : List UInt8) (h : store.read path = .ok bytes) :
      Text.ShortNumerals (Text.byteLines bytes) := by
    obtain ⟨_, hmem, rfl⟩ := OrderedMap.mem_of_mem_values_ofList (Store.mem_values_of_read h)
    cases List.mem_singleton.1 hmem
    exact Text.shortNumerals_encode (by decide +kernel)
  have hargs : Request.parse ["--log-level=ERROR"] = .ok (.run ⟨none, [], some .error⟩) := by decide +kernel
  obtain ⟨lines, output, records, status, unread, htyped, hdialogue, hrun, hunread, -⟩ :=
    run_dialogue hargs rfl hshort "none.dfa\r\n ./ab.dfa\nba\r\n\n quit \nb"
  have hlines : lines.map Text.trim = ["none.dfa", "./ab.dfa", "ba", "", "quit", "b"] := by
    rw [← Text.typed_iff.1 htyped]; decide +kernel
  rw [hlines] at hdialogue hunread
  obtain rfl : ["b"] = unread := .trans (by decide +kernel) hunread
  refine ⟨store, records, ?_, by decide +kernel, by decide +kernel⟩
  rw [hrun]; exact hdialogue

/-! ### Names that are too long -/

/-- A name of more bytes than a name may have is no path, whatever files there are. -/
theorem read_of_longName (store : Store) {name : String} (hslash : '/' ∉ name.toList)
    (hnull : Path.hasNull name = false) (hlong : Path.isLongName name = true) (hpath : Path.isLong name = false) :
    store.read (pathOf name) = .error (.nameTooLong name) := by
  have hplain := Path.isPlain_of_isLongName hlong hslash
  let p : PlainPath := ⟨[name], List.cons_ne_nil _ _, List.forall_mem_singleton.2 hplain⟩
  have hp : p.toText = name := String.intercalate_singleton
  have hplace : store.place p.toText = .longName true := by
    rw [Store.place, p.origin_toText, p.steps_toText, hp, if_neg (by rw [hpath]; exact Bool.false_ne_true),
      Store.follow]
    simp [hplain.2.1, hplain.2.2.1, hlong]
  rw [pathOf, ← hp, p.toText_ofText, Store.read, p.toText_ofText, hplace, hp]
  simp [hnull]

/-- A name of 256 letters is the name of no file, and yet the session ends with a fault and asks for no other. -/
theorem run_escapes_longName :
    ∃ name : String, name.length = 256 ∧ ¬ NamesFile .empty name ∧
      (run Store.empty.read [] (name ++ "\n")).status = .escaped (.nameTooLong name) ∧
      (run Store.empty.read [] (name ++ "\n")).output = "Enter the DFA file name: " ∧
      (run Store.empty.read [] (name ++ "\n")).log = "" := by
  obtain ⟨name, hname, hsize⟩ : ∃ name : String, name.toList = List.replicate 256 'a' ∧ name.utf8ByteSize = 256 :=
    ⟨String.ofList (List.replicate 256 'a'), String.toList_ofList,
      (String.utf8ByteSize_ofList _).trans (by decide +kernel)⟩
  have hmem : ∀ c ∈ name.toList, c = 'a' := fun c hc => List.eq_of_mem_replicate (hname ▸ hc)
  have hnot {c : Char} (h : c ≠ 'a') : c ∉ name.toList := fun hc => h (hmem c hc)
  have hlength : name.length = 256 := by rw [← String.length_toList, hname, List.length_replicate]
  have hread : Store.empty.read (pathOf name) = .error (.nameTooLong name) :=
    read_of_longName _ (hnot (by decide)) (by simpa [Path.hasNull] using hnot (by decide))
      (by rw [Path.isLongName, hsize]; rfl) (by rw [Path.isLong, hsize]; rfl)
  have hword : Text.IsWord name.toList :=
    ⟨List.ne_nil_of_length_pos (by rw [String.length_toList, hlength]; decide), fun c hc => by rw [hmem c hc]; rfl⟩
  have hreplies : (Text.replies (name ++ "\n")).map Text.trim = [name] := by
    have hunbroken : Text.Unbroken name.toList := ⟨hnot (by decide), hnot (by decide)⟩
    have htyped : Text.Typed (name ++ "\n").toList ([name].map String.toList) := by
      have hline := Text.Typed.line hunbroken (.lineFeed []) .nothing
      rw [List.append_nil] at hline
      rw [String.toList_append]; exact hline
    rw [Text.typed_iff.1 htyped, List.map_singleton, Text.trim_of_isWord hword]
  have hargs : Request.parse [] = .ok (.run ⟨none, [], some .warning⟩) := rfl
  have hrun : run Store.empty.read [] (name ++ "\n") = _ := run_of_noFile hargs rfl (name ++ "\n")
  rw [hreplies, converse_cons rfl, react_of_tooLong [] hread, converse_over] at hrun
  have hnone : ¬ NamesFile .empty name := by
    rintro ⟨bytes, h⟩; rw [hread] at h; cases h
  refine ⟨name, hlength, hnone, ?_⟩
  rw [hrun]; exact ⟨rfl, rfl, rfl⟩

end Command

end Acceptor
