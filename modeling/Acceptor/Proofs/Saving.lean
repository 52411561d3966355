import Acceptor.Proofs.Operation
import Acceptor.Proofs.PlainPath
import Acceptor.Proofs.RoundTrip
import Acceptor.Proofs.Routes
import Acceptor.Proofs.Wide
import Mathlib.Data.List.Induction

/-!
# Saved automata

What is in the files after calls that save, load and describe. To save opens the file first, so a call that fails
either is refused by the path and changes nothing, or has a surrogate to write and leaves an empty file
(`Answered`). No call changes the directories (`directories_after`), so a path is accepted before a run or never.
Then a file holds what was saved there last, or what it held at first (`find?_after`); that is read back as an
automaton equal to the one saved (`files_after_calls`).
-/

namespace Acceptor

open Operation

namespace Automaton

variable {d : Automaton} {s : Store} {path : String}

def bytes (d : Automaton) : List UInt8 := Text.Utf8.encode d.format.toList

theorem load_of_read (h : s.read path = .ok d.bytes) : load s path = d.readBack := by
  rw [load, Builder.ofFile_of_read h]
  rfl

theorem load_of_error {fault : Fault} (h : s.read path = .error fault) : load s path = .error fault := by
  rw [load, Builder.ofFile, h]
  rfl

end Automaton

namespace WideAutomaton

variable {d : WideAutomaton}

/-- What is written to a file, if there is a text and it has bytes. -/
def bytes (d : WideAutomaton) : Except Fault (List UInt8) :=
  d.text.bind fun text => (Text.Utf8.encodeAll text).mapError Fault.unencodable

/-- The ids have no more digits than can be written and read. -/
def Short (d : WideAutomaton) : Prop := (∀ q ∈ d.rows.keys, Numeral.Short q) ∧ ∀ q ∈ d.finals, Numeral.Short q

instance (d : WideAutomaton) : Decidable d.Short := inferInstanceAs (Decidable (_ ∧ _))

theorem text_of_short (h : d.Short) : d.text = .ok d.format := by
  have hkeys {q : Int} (hq : d.rows.contains q = true) : Numeral.Short q := h.1 q (OrderedMap.mem_keys_iff.2 hq)
  refine if_pos (List.all_eq_true.2 fun q hq => decide_eq_true ?_)
  rcases List.mem_append.1 hq with hq | hq
  · exact h.2 q hq
  · obtain ⟨⟨p, c, t⟩, he, hq⟩ := List.mem_flatMap.1 hq
    have htarget := Rows.mem_edges.1 he
    rcases List.mem_pair.1 hq with rfl | rfl
    · obtain ⟨row, hrow, -⟩ := Option.bind_eq_some_iff.1 htarget
      exact hkeys (OrderedMap.contains_iff.2 ⟨row, hrow⟩)
    · exact hkeys (d.complete.closed q (Rows.mem_targets_iff.2 ⟨p, c, htarget⟩))

theorem bytes_of_surrogate (hd : d.Short) (h : d.hasSurrogate = true) :
    d.bytes = .error (.unencodable (Text.surrogatesOf d.format)) := by
  rw [bytes, text_of_short hd, Except.bind, encodeAll_format_of_surrogate h]; rfl

theorem bytes_wide {e : Automaton} (he : e.wide.Short) : e.wide.bytes = .ok e.bytes := by
  rw [bytes, text_of_short he, Except.bind, encodeAll_format_wide]; rfl

/-- Short ids and no surrogate are what it takes to be written. -/
theorem exists_eq_wide_of_bytes {bytes : List UInt8} (hd : d.Short) (h : d.bytes = .ok bytes) :
    ∃ e : Automaton, d = e.wide ∧ bytes = e.bytes := by
  cases hsurrogate : d.hasSurrogate with
  | true => rw [bytes_of_surrogate hd hsurrogate] at h; cases h
  | false =>
    obtain ⟨e, rfl⟩ := hasSurrogate_eq_false_iff.1 hsurrogate
    rw [bytes_wide hd] at h
    exact ⟨e, rfl, (Except.ok.inj h).symm⟩

theorem short_wide {e : Automaton} (h : e.wide.Short) : ∀ q ∈ e.states, Numeral.Short q := by
  intro q hq
  refine h.1 q (OrderedMap.mem_keys_iff.2 ?_)
  show e.rows.wide.contains q = true
  rw [Rows.contains_wide]
  exact Automaton.mem_states.1 hq

/-- One state with a loop on U+D800. -/
def surrogateLoop : WideAutomaton :=
  ⟨.ofList [(0, .ofList [(.surrogate 0, 0)])], [0], failure?_eq_none_iff.1 rfl, by decide, by decide⟩

end WideAutomaton

inductive FileCall where
  | save (d : WideAutomaton) (p : PlainPath)
  | load (path : String)
  | describe (path : String)

/-- What is saved has no id that is too long. -/
def FileCall.Short : FileCall → Prop
  | .save d _ => d.Short
  | _ => True

inductive FileReply where
  | saved
  | loaded (d : Automaton)
  | described (b : Builder)

/-- What the call does, step by step. -/
def FileCall.op : FileCall → Operation Store FileReply
  | .save d p => do
    d.saving p.toText
    return .saved
  | .load path => do
    let d ← Automaton.load (← get) path
    return .loaded d
  | .describe path => do
    let b ← Builder.ofFile (← get) path
    return .described b

namespace Store

/-- The store that a call leaves behind, and what it gives back. -/
def answer (s : Store) (call : FileCall) : Store × Except Fault FileReply := call.op.perform s

def after (s : Store) (calls : List FileCall) : Store := calls.foldl (fun s call => (s.answer call).1) s

/-- What the saves at a path have come to. -/
inductive Mark where
  /-- None of them opened a file. -/
  | untouched
  /-- The last one that opened the file was refused afterwards. -/
  | emptied
  | saved (d : WideAutomaton)

/-- The mark of the calls at a path: that of the last save there for which the file could be opened. -/
inductive LastSaved (s : Store) (p : PlainPath) : List FileCall → Mark → Prop
  | start : LastSaved s p [] .untouched
  | saved {calls : List FileCall} {d : WideAutomaton} (h : ((s.after calls).answer (.save d p)).2 = .ok .saved) :
    LastSaved s p (calls ++ [.save d p]) (.saved d)
  | emptied {calls : List FileCall} {d : WideAutomaton} {fault : Fault} (hp : (s.after calls).Accepts p)
    (h : ((s.after calls).answer (.save d p)).2 = .error fault) : LastSaved s p (calls ++ [.save d p]) .emptied
  | passed {calls : List FileCall} {call : FileCall} {mark : Mark} (h : LastSaved s p calls mark)
    (hcall : ∀ d, call = .save d p → ¬ (s.after calls).Accepts p) : LastSaved s p (calls ++ [call]) mark

variable {s t : Store} {p : PlainPath} {d : WideAutomaton} {calls : List FileCall} {call : FileCall}

@[simp] theorem after_concat (s : Store) (calls : List FileCall) (call : FileCall) :
    s.after (calls ++ [call]) = ((s.after calls).answer call).1 := by
  rw [after, List.foldl_concat]; rfl

/-! ### One call -/

/-- The store with other contents in a file. -/
def withFile (s : Store) (name : List String) (bytes : List UInt8) : Store :=
  { s with files := s.files.insert name bytes }

theorem perform_saving_of_refused {path : String} {text : Except Fault (List Text.CodePoint)} {fault : Fault}
    (h : s.target path = .error fault) : (saving path text).perform s = (s, .error fault) := by
  have hopening : (opening path).perform s = (s, .error fault) := by
    rw [opening, perform_get_bind, perform_check_bind_error h]
  exact perform_bind_of_error hopening

/-- The file is opened, and written to if there are bytes. -/
theorem perform_saving {name : List String} (d : WideAutomaton) (h : s.target p.toText = .ok name) :
    (d.saving p.toText).perform s = match d.bytes with
      | .ok bytes => (s.withFile name bytes, .ok ())
      | .error fault => (s.withFile name [], .error fault) := by
  have hopening : (opening p.toText).perform s = (s.withFile name [], .ok name) := by
    rw [opening, perform_get_bind, perform_check_bind h]; rfl
  rw [WideAutomaton.saving, saving, perform_bind_of_ok hopening, WideAutomaton.bytes]
  cases d.text with
  | error fault => exact perform_check_bind_error rfl
  | ok text =>
    rw [perform_check_bind rfl, Except.bind]
    cases (Text.Utf8.encodeAll text).mapError Fault.unencodable with
    | error fault => exact perform_check_bind_error rfl
    | ok bytes =>
      rw [perform_check_bind rfl, fill, perform_modify]
      simp only [withFile, OrderedMap.insert_insert]

theorem answer_load (s : Store) (path : String) :
    s.answer (.load path) = (s, (Automaton.load s path).map .loaded) := by
  rw [answer, FileCall.op, perform_get_bind, perform_check_map]

theorem answer_describe (s : Store) (path : String) :
    s.answer (.describe path) = (s, (Builder.ofFile s path).map .described) := by
  rw [answer, FileCall.op, perform_get_bind, perform_check_map]

theorem answer_of_refused (hs : s.IsTree) (h : ¬ s.Accepts p) (d : WideAutomaton) :
    ∃ fault, s.answer (.save d p) = (s, .error fault) := by
  obtain ⟨fault, hfault⟩ := (exists_target_error_iff hs).2 h
  exact ⟨fault, perform_bind_of_error (perform_saving_of_refused hfault)⟩

theorem answer_of_accepts (hs : s.IsTree) (hp : s.Accepts p) (d : WideAutomaton) :
    s.answer (.save d p) = match d.bytes with
      | .ok bytes => (s.withFile p.names bytes, .ok .saved)
      | .error fault => (s.withFile p.names [], .error fault) := by
  have hsaving := perform_saving d (target_of_accepts hs hp)
  cases hbytes : d.bytes with
  | ok bytes => rw [hbytes] at hsaving; exact perform_bind_of_ok hsaving
  | error fault => rw [hbytes] at hsaving; exact perform_bind_of_error hsaving

/-- Everything that a call can do to the files: a save writes, or leaves an empty file if there is nothing to write,
or is refused by the path; no other call changes a file. -/
inductive Answered (s : Store) : FileCall → Store × Except Fault FileReply → Prop
  | wrote {d : WideAutomaton} {p : PlainPath} {bytes : List UInt8} (hp : s.Accepts p) (h : d.bytes = .ok bytes) :
    Answered s (.save d p) (s.withFile p.names bytes, .ok .saved)
  | emptied {d : WideAutomaton} {p : PlainPath} {fault : Fault} (hp : s.Accepts p) (h : d.bytes = .error fault) :
    Answered s (.save d p) (s.withFile p.names [], .error fault)
  | refused {d : WideAutomaton} {p : PlainPath} {fault : Fault} (hp : ¬ s.Accepts p) :
    Answered s (.save d p) (s, .error fault)
  | read {call : FileCall} {reply : Except Fault FileReply} (h : ∀ d p, call ≠ .save d p) : Answered s call (s, reply)

theorem answered (hs : s.IsTree) (call : FileCall) : Answered s call (s.answer call) := by
  cases call with
  | save d p =>
    by_cases hp : s.Accepts p
    · rw [answer_of_accepts hs hp]
      cases hbytes : d.bytes with
      | ok bytes => exact .wrote hp hbytes
      | error fault => exact .emptied hp hbytes
    · obtain ⟨fault, h⟩ := answer_of_refused hs hp d
      rw [h]; exact .refused hp
  | load path => rw [answer_load]; exact .read fun _ _ h => by cases h
  | describe path => rw [answer_describe]; exact .read fun _ _ h => by cases h

namespace Answered

variable {r : Store × Except Fault FileReply}

/-- No call makes or removes a directory. -/
theorem directories (h : Answered s call r) : r.1.directories = s.directories := by
  cases h <;> rfl

theorem of_saved (h : Answered s (.save d p) r) (hsaved : r.2 = .ok .saved) :
    s.Accepts p ∧ ∃ bytes, d.bytes = .ok bytes ∧ r.1 = s.withFile p.names bytes := by
  cases h with
  | wrote hp hbytes => exact ⟨hp, _, hbytes, rfl⟩
  | emptied | refused => cases hsaved
  | read hnot => exact absurd rfl (hnot d p)

/-- A save that fails behind the opening of the file has emptied it. -/
theorem of_error {fault : Fault} (h : Answered s (.save d p) r) (hp : s.Accepts p) (herror : r.2 = .error fault) :
    r.1 = s.withFile p.names [] := by
  cases h with
  | wrote => cases herror
  | emptied => rfl
  | refused hnot => exact absurd hp hnot
  | read hnot => exact absurd rfl (hnot d p)

end Answered

/-! ### Runs -/

theorem isDirectory_congr (h : t.directories = s.directories) (name : List String) :
    t.isDirectory name = s.isDirectory name := by
  rw [isDirectory, isDirectory, h]

theorem IsTree.congr (hs : s.IsTree) (h : t.directories = s.directories) : t.IsTree := by
  intro name hname
  rw [isDirectory_congr h]
  exact hs name (h ▸ hname)

theorem Accepts.congr (hp : s.Accepts p) (h : t.directories = s.directories) : t.Accepts p :=
  ⟨(isDirectory_congr h _).trans hp.dir, (isDirectory_congr h _).trans hp.not_directory, hp.not_tooLong, hp.not_null⟩

theorem directories_after (hs : s.IsTree) (calls : List FileCall) : (s.after calls).directories = s.directories := by
  induction calls generalizing s with
  | nil => rfl
  | cons call calls ih =>
    have hcall := (answered hs call).directories
    exact (ih (hs.congr hcall)).trans hcall

theorem IsTree.after (hs : s.IsTree) (calls : List FileCall) : (s.after calls).IsTree :=
  hs.congr (directories_after hs calls)

theorem find?_withFile (s : Store) (name : List String) (bytes : List UInt8) :
    (s.withFile name bytes).files.find? name = some bytes := by
  rw [withFile, OrderedMap.find?_insert, beq_self_eq_true]; rfl

theorem find?_withFile_of_ne {name other : List String} (h : other ≠ name) (bytes : List UInt8) :
    (s.withFile name bytes).files.find? other = s.files.find? other := by
  rw [withFile, OrderedMap.find?_insert, beq_eq_false_iff_ne.2 h.symm]; rfl

/-- A call that does not open a file leaves it as it is. -/
theorem Answered.find? {r : Store × Except Fault FileReply} (h : Answered s call r)
    (hcall : ∀ d, call = .save d p → ¬ s.Accepts p) : r.1.files.find? p.names = s.files.find? p.names := by
  have hne {d : WideAutomaton} {q : PlainPath} (hq : s.Accepts q) (h : call = .save d q) : p.names ≠ q.names := by
    intro heq
    obtain rfl := PlainPath.ext heq
    exact hcall d h hq
  cases h with
  | wrote hq => exact find?_withFile_of_ne (hne hq rfl) _
  | emptied hq => exact find?_withFile_of_ne (hne hq rfl) _
  | refused | read => rfl

/-- What a mark says of the contents of the file, if anything. -/
inductive Mark.Holds (before : Option (List UInt8)) : Mark → Option (List UInt8) → Prop
  | untouched : Holds before .untouched before
  | emptied : Holds before .emptied (some [])
  | saved {d : WideAutomaton} {bytes : List UInt8} (h : d.bytes = .ok bytes) : Holds before (.saved d) (some bytes)

namespace Mark.Holds

variable {before found : Option (List UInt8)}

theorem eq_of_untouched (h : Mark.Holds before .untouched found) : found = before := by
  cases h; rfl

theorem eq_of_emptied (h : Mark.Holds before .emptied found) : found = some [] := by
  cases h; rfl

theorem exists_bytes (h : Mark.Holds before (.saved d) found) : ∃ bytes, d.bytes = .ok bytes ∧ found = some bytes := by
  cases h with
  | saved h => exact ⟨_, h, rfl⟩

end Mark.Holds

/-- What was saved last is in the file. -/
theorem find?_after (hs : s.IsTree) {mark : Mark} (h : LastSaved s p calls mark) :
    mark.Holds (s.files.find? p.names) ((s.after calls).files.find? p.names) := by
  induction h with
  | start => exact .untouched
  | @saved calls d h =>
    obtain ⟨-, bytes, hbytes, hstore⟩ := (answered (hs.after calls) (.save d p)).of_saved h
    rw [after_concat, hstore, find?_withFile]
    exact .saved hbytes
  | @emptied calls d fault hp h =>
    rw [after_concat, (answered (hs.after calls) (.save d p)).of_error hp h, find?_withFile]
    exact .emptied
  | @passed calls call mark _ hcall ih =>
    rw [after_concat, (answered (hs.after calls) call).find? hcall]
    exact ih

theorem LastSaved.accepts (hs : s.IsTree) (h : LastSaved s p calls (.saved d)) : s.Accepts p ∧ .save d p ∈ calls := by
  generalize hmark : Mark.saved d = mark at h
  induction h with
  | start | emptied => cases hmark
  | @saved calls e h =>
    cases hmark
    obtain ⟨hp, -⟩ := (answered (hs.after calls) (.save d p)).of_saved h
    exact ⟨hp.congr (directories_after hs calls).symm, by simp⟩
  | passed _ _ ih => exact ⟨(ih hmark).1, List.mem_append_left _ (ih hmark).2⟩

theorem lastSaved_of_accepts (hs : s.IsTree) (hp : s.Accepts p) (calls : List FileCall) {e : Automaton}
    (he : e.wide.Short) : LastSaved s p (calls ++ [.save e.wide p]) (.saved e.wide) :=
  .saved (by
    rw [answer_of_accepts (hs.after calls) (hp.congr (directories_after hs calls)), WideAutomaton.bytes_wide he])

theorem exists_lastSaved (hs : s.IsTree) (p : PlainPath) (calls : List FileCall) :
    ∃ mark, LastSaved s p calls mark := by
  induction calls using List.reverseRecOn with
  | nil => exact ⟨.untouched, .start⟩
  | append_singleton calls call ih =>
    obtain ⟨mark, h⟩ := ih
    by_cases hcall : ∃ d, call = .save d p ∧ (s.after calls).Accepts p
    · obtain ⟨d, rfl, hp⟩ := hcall
      have hanswer := answer_of_accepts (hs.after calls) hp d
      cases hbytes : d.bytes with
      | ok bytes => exact ⟨.saved d, .saved (by rw [hanswer, hbytes])⟩
      | error fault => exact ⟨.emptied, .emptied hp (by rw [hanswer, hbytes])⟩
    · exact ⟨mark, .passed h fun d hd hp => hcall ⟨d, hd, hp⟩⟩

/-! ### What a save does -/

theorem answer_of_obstructed (hs : s.IsTree) (h : s.Obstructed p) (d : WideAutomaton) :
    ∃ fault, s.answer (.save d p) = (s, .error fault) :=
  answer_of_refused hs (fun hp => accepts_iff.1 hp h) d

theorem save_refused_iff (hs : s.IsTree) (hd : d.Short) :
    (∃ fault, (s.answer (.save d p)).2 = .error fault) ↔ s.Obstructed p ∨ d.hasSurrogate = true := by
  by_cases hp : s.Obstructed p
  · obtain ⟨fault, h⟩ := answer_of_obstructed hs hp d
    exact iff_of_true ⟨fault, by rw [h]⟩ (.inl hp)
  · rw [answer_of_accepts hs (accepts_iff.2 hp), or_iff_right hp]
    cases hsurrogate : d.hasSurrogate with
    | true => rw [WideAutomaton.bytes_of_surrogate hd hsurrogate]; simp
    | false =>
      obtain ⟨e, rfl⟩ := WideAutomaton.hasSurrogate_eq_false_iff.1 hsurrogate
      rw [WideAutomaton.bytes_wide hd]; simp

/-- The file at the path is the only thing that a save changes. -/
structure Replaced (s : Store) (p : PlainPath) (bytes : List UInt8) (t : Store) : Prop where
  find?_self : t.files.find? p.names = some bytes
  find?_of_ne : ∀ name, name ≠ p.names → t.files.find? name = s.files.find? name
  directories : t.directories = s.directories

theorem replaced_withFile (s : Store) (p : PlainPath) (bytes : List UInt8) :
    Replaced s p bytes (s.withFile p.names bytes) :=
  ⟨find?_withFile s p.names bytes, fun _ h => find?_withFile_of_ne h bytes, rfl⟩

theorem replaced_of_surrogate (hs : s.IsTree) (hp : ¬ s.Obstructed p) (hd : d.Short) (h : d.hasSurrogate = true) :
    Replaced s p [] (s.answer (.save d p)).1 := by
  rw [answer_of_accepts hs (accepts_iff.2 hp), WideAutomaton.bytes_of_surrogate hd h]
  exact replaced_withFile s p []

theorem replaced_of_wide (hs : s.IsTree) (hp : ¬ s.Obstructed p) {e : Automaton} (he : e.wide.Short) :
    Replaced s p (Text.Utf8.encode e.format.toList) (s.answer (.save e.wide p)).1 := by
  rw [answer_of_accepts hs (accepts_iff.2 hp), WideAutomaton.bytes_wide he]
  exact replaced_withFile s p e.bytes

/-- After any calls: which saves are refused and what a save does, what is in a file and is read back from it, and
that reading leaves everything as it is. -/
theorem files_after_calls (hs : s.IsTree) (calls : List FileCall) (hshort : ∀ call ∈ calls, call.Short) :
    (∀ (d : WideAutomaton) (p : PlainPath), d.Short →
      ((∃ fault, ((s.after calls).answer (.save d p)).2 = .error fault) ↔
        (s.after calls).Obstructed p ∨ d.hasSurrogate = true) ∧
      ((s.after calls).Obstructed p → s.after (calls ++ [.save d p]) = s.after calls) ∧
      (¬ (s.after calls).Obstructed p → d.hasSurrogate = true →
        Replaced (s.after calls) p [] (s.after (calls ++ [.save d p]))) ∧
      (¬ (s.after calls).Obstructed p → d.hasSurrogate = false → ∃ e : Automaton, d = e.wide ∧
        Replaced (s.after calls) p (Text.Utf8.encode e.format.toList) (s.after (calls ++ [.save d p])))) ∧
    (∀ p, ∃ mark, LastSaved s p calls mark) ∧
    (∀ p, (LastSaved s p calls .untouched → (s.after calls).files.find? p.names = s.files.find? p.names) ∧
      (LastSaved s p calls .emptied → (s.after calls).files.find? p.names = some []) ∧
      ∀ d, LastSaved s p calls (.saved d) → ∃ e : Automaton, d = e.wide ∧
        (s.after calls).files.find? p.names = some (Text.Utf8.encode e.format.toList) ∧
        (e.edges ≠ [] → ∃ e', Automaton.load (s.after calls) p.toText = .ok e' ∧ (e' == e) = true)) ∧
    (∀ p : PlainPath, ¬ p.TooLong →
      (s.after calls).isDirectory p.names = true ∨ (s.after calls).files.contains p.names = false →
      Automaton.load (s.after calls) p.toText = .error (.noFile p.toText)) ∧
    ∀ path, s.after (calls ++ [.load path]) = s.after calls ∧
      s.after (calls ++ [.describe path]) = s.after calls := by
  have htree := hs.after calls
  refine ⟨fun d p hd => ⟨save_refused_iff htree hd, fun hp => ?_, fun hp h => ?_, fun hp h => ?_⟩,
    fun p => exists_lastSaved hs p calls,
    fun p => ⟨fun h => (find?_after hs h).eq_of_untouched, fun h => (find?_after hs h).eq_of_emptied, fun d h => ?_⟩,
    fun p hlong h => Automaton.load_of_error (read_of_not_file htree hlong h), fun path => ?_⟩
  · obtain ⟨fault, h⟩ := answer_of_obstructed htree hp d
    rw [after_concat, h]
  · rw [after_concat]; exact replaced_of_surrogate htree hp hd h
  · obtain ⟨e, rfl⟩ := WideAutomaton.hasSurrogate_eq_false_iff.1 h
    rw [after_concat]; exact ⟨e, rfl, replaced_of_wide htree hp hd⟩
  · obtain ⟨haccepts, hmem⟩ := h.accepts hs
    have hd : d.Short := hshort _ hmem
    obtain ⟨bytes, hbytes, hfile⟩ := (find?_after hs h).exists_bytes
    obtain ⟨e, rfl, rfl⟩ := WideAutomaton.exists_eq_wide_of_bytes hd hbytes
    refine ⟨e, rfl, hfile, fun hedges => ?_⟩
    obtain ⟨e', he', halike⟩ := Automaton.exists_readBack (WideAutomaton.short_wide hd) hd.2 hedges
    have hread := read_of_find? htree (haccepts.congr (directories_after hs calls)) hfile
    exact ⟨e', (Automaton.load_of_read hread).trans he', halike.beq⟩
  · rw [after_concat, after_concat, answer_load, answer_describe]
    exact ⟨rfl, rfl⟩

/-- A longer content is replaced, a save to a directory is refused behind it, and a surrogate leaves an empty file. -/
theorem files_after_calls_refused :
    ∃ (s : Store) (p q : PlainPath) (d : Automaton) (w : WideAutomaton), p.toText = "d/t" ∧ q.toText = "d" ∧
      w.hasSurrogate = true ∧ s.files.find? p.names = some (List.replicate 100 0x78) ∧
      (∃ fault, ((s.after [.save d.wide p]).answer (.save d.wide q)).2 = .error fault) ∧
      s.after [.save d.wide p, .save d.wide q] = s.after [.save d.wide p] ∧
      (s.after [.save d.wide p]).files.find? p.names = some (Text.Utf8.encode d.format.toList) ∧
      (∃ e, Automaton.load (s.after [.save d.wide p]) p.toText = .ok e ∧ (e == d) = true) ∧
      Automaton.load (s.after [.save d.wide p]) q.toText = .error (.noFile q.toText) ∧
      (∃ fault, ((s.after [.save d.wide p]).answer (.save w p)).2 = .error fault) ∧
      (s.after [.save d.wide p, .save w p]).files.find? p.names = some [] := by
  let s : Store := ⟨[["d"]], .ofList [(["d", "t"], List.replicate 100 0x78)]⟩
  let p : PlainPath := ⟨["d", "t"], by decide, by decide⟩
  let q : PlainPath := ⟨["d"], by decide, by decide⟩
  let d : Automaton := ⟨.ofList [(0, .ofList [('a', 1)]), (1, .ofList [('a', 0)])], [1], failure?_eq_none_iff.1 rfl,
    by decide, Automaton.isBlank_of_any rfl⟩
  have hs : s.IsTree := by decide
  have hd : d.wide.Short := by decide
  have hp : s.Accepts p := ⟨by decide, by decide, by decide +kernel, by decide +kernel⟩
  have hq : (s.after [.save d.wide p]).isDirectory q.names = true := isDirectory_congr (directories_after hs _) _
  have hopen : ¬ (s.after [.save d.wide p]).Obstructed p := accepts_iff.1 (hp.congr (directories_after hs _))
  obtain ⟨hsave, -, hlast, hnone, -⟩ := files_after_calls hs [.save d.wide p] (by simpa [FileCall.Short] using hd)
  obtain ⟨hrefused, hsame, -⟩ := hsave d.wide q hd
  obtain ⟨hsurrogate, -, hempty, -⟩ := hsave .surrogateLoop p (by decide)
  obtain ⟨e, he, hfind, hload⟩ := (hlast p).2.2 d.wide (lastSaved_of_accepts hs hp [] hd)
  obtain rfl : d = e := Automaton.wide_injective he
  exact ⟨s, p, q, d, .surrogateLoop, by decide, by decide, by decide, rfl, hrefused.2 (.inl (.inl hq)),
    hsame (.inl hq), hfind, hload (by decide), hnone q (by decide +kernel) (.inl hq), hsurrogate.2 (.inr (by decide)),
    (hempty hopen (by decide)).find?_self⟩

/-- A name of 256 letters and a name with U+0000 are refused though their directory is there, and what stands under
the long one is not reported as missing. A surrogate is refused when the file is empty already. -/
theorem save_refused_in_directory :
    ∃ p q r : PlainPath, p.toText = String.ofList (List.replicate 256 'a') ∧ q.toText = String.singleton '\x00' ∧
      r.toText = "r" ∧ Store.empty.IsTree ∧
      Store.empty.isDirectory p.dir = true ∧ Store.empty.isDirectory p.names = false ∧
      Store.empty.isDirectory q.dir = true ∧ Store.empty.isDirectory q.names = false ∧
      Store.empty.isDirectory r.dir = true ∧ Store.empty.isDirectory r.names = false ∧
      (∀ d : WideAutomaton, ((d.saving p.toText).perform .empty).2 = .error (.nameTooLong p.toText) ∧
        ((d.saving q.toText).perform .empty).2 = .error .nullInPath) ∧
      (∃ d : WideAutomaton, ((d.saving r.toText).perform .empty).2 = .error (.unencodable ⟨0xD800, 4, 1⟩) ∧
        ((d.saving r.toText).perform .empty).1.files.find? r.names = some []) ∧
      Store.empty.files.contains p.names = false ∧
      Automaton.load .empty p.toText = .error (.nameTooLong p.toText) := by
  obtain ⟨name, hname, hsize⟩ : ∃ name : String, name = String.ofList (List.replicate 256 'a') ∧
      name.utf8ByteSize = 256 := ⟨_, rfl, (String.utf8ByteSize_ofList _).trans (by decide +kernel)⟩
  have hletters {c : Char} (h : c ≠ 'a') : c ∉ name.toList := by
    rw [hname, String.toList_ofList]
    exact fun hc => h (List.eq_of_mem_replicate hc)
  have hlong : Path.isLongName name = true := by rw [Path.isLongName, hsize]; rfl
  have hplain := Path.isPlain_of_isLongName hlong (hletters (by decide))
  let p : PlainPath := ⟨[name], List.cons_ne_nil _ _, List.forall_mem_singleton.2 hplain⟩
  let q : PlainPath := ⟨[String.singleton '\x00'], by decide, by decide⟩
  let r : PlainPath := ⟨["r"], by decide, by decide⟩
  have hp : p.toText = name := String.intercalate_singleton
  have hnull : Path.hasNull p.toText = false := by
    rw [hp]
    simpa [Path.hasNull] using hletters (c := '\x00') (by decide)
  have htree : Store.empty.IsTree := by decide
  have hdir : Store.empty.isDirectory p.dir = true := rfl
  have htooLong : p.TooLong := .inr ⟨name, .head _, hlong⟩
  have hnot : Store.empty.isDirectory p.names = false := Bool.eq_false_iff.2 fun h =>
    absurd (@mem_directories .empty [] name hplain h) List.not_mem_nil
  have hr : Store.empty.Accepts r := ⟨by decide, by decide, by decide +kernel, by decide +kernel⟩
  have hsaving := perform_saving .surrogateLoop (target_of_accepts htree hr)
  have hsurrogates : Text.surrogatesOf WideAutomaton.surrogateLoop.format = ⟨0xD800, 4, 1⟩ := by decide +kernel
  rw [WideAutomaton.bytes_of_surrogate (by decide) (by decide), hsurrogates] at hsaving
  refine ⟨p, q, r, hp.trans hname, String.intercalate_singleton, by decide, htree, hdir, hnot, rfl, by decide, rfl,
    by decide, fun d => ⟨?_, ?_⟩, ⟨.surrogateLoop, ?_, ?_⟩, rfl,
    Automaton.load_of_error (read_of_tooLong htree hdir htooLong hnull)⟩
  · rw [WideAutomaton.saving, perform_saving_of_refused (target_of_tooLong htree hdir htooLong hnull)]
  · rw [WideAutomaton.saving, perform_saving_of_refused (if_pos (by decide))]
  · rw [hsaving]
  · rw [hsaving]; exact find?_withFile _ _ _

end Store

end Acceptor
