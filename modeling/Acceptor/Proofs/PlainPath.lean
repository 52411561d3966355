import Acceptor.Files
import Acceptor.Proofs.OrderedMap
import Mathlib.Data.String.Basic

/-!
# Where plain names lead

A `PlainPath` is names between slashes, none of them empty, `.` or `..`. Its text is cut into these names again
(`steps_toText`) and has no other spelling (`toText_ofText`). In a tree of directories following it has one of
the outcomes of `Store.Led`: it comes to an end in the directory around it, or is stopped before. So the paths that
can be opened for writing are those that a store `Accepts` (`exists_target_error_iff`), and what is read is what is in
the file (`read_of_find?`).
-/

namespace Acceptor

namespace Path

/-- A name that is one step down. -/
def IsPlain (name : String) : Prop := name ≠ "" ∧ name ≠ "." ∧ name ≠ ".." ∧ '/' ∉ name.toList

instance (name : String) : Decidable (IsPlain name) := inferInstanceAs (Decidable (_ ∧ _ ∧ _ ∧ _))

theorem isPlain_of_isLongName {name : String} (h : isLongName name = true) (hslash : '/' ∉ name.toList) :
    IsPlain name := by
  have hne (short : String) (hshort : isLongName short = false) : name ≠ short := by
    rintro rfl; rw [hshort] at h; cases h
  exact ⟨hne "" (by decide), hne "." (by decide), hne ".." (by decide), hslash⟩

end Path

structure PlainPath where
  names : List String
  ne_nil : names ≠ []
  plain : ∀ name ∈ names, Path.IsPlain name

namespace PlainPath

def toText (p : PlainPath) : String := "/".intercalate p.names

/-- The directory around it. -/
def dir (p : PlainPath) : List String := p.names.dropLast

/-- Longer than files allow, as a whole or in one of the names. -/
def TooLong (p : PlainPath) : Prop := Path.isLong p.toText = true ∨ ∃ name ∈ p.names, Path.isLongName name = true

instance (p : PlainPath) : Decidable p.TooLong := inferInstanceAs (Decidable (_ ∨ _))

@[ext] theorem ext {p q : PlainPath} (h : p.names = q.names) : p = q := by
  cases p; cases q; cases h; rfl

/-! ### The text of a path -/

variable (p : PlainPath)

theorem splitOn_toText : p.toText.toList.splitOn '/' = p.names.map String.toList := by
  rw [toText, String.toList_intercalate]
  refine List.splitOn_intercalate '/' (fun l hl => ?_) fun h => p.ne_nil (List.map_eq_nil_iff.1 h)
  obtain ⟨name, hname, rfl⟩ := List.mem_map.1 hl
  exact (p.plain name hname).2.2.2

theorem steps_toText : Path.steps p.toText = p.names := by
  have hne : ∀ name ∈ p.names, decide (name ≠ "") = true := fun name hname => decide_eq_true (p.plain name hname).1
  have hsplit : p.toText.toList.splitOnP (· == '/') = p.names.map String.toList := p.splitOn_toText
  have hback : p.names.map (String.ofList ∘ String.toList) = p.names := by simp [Function.comp_def]
  rw [Path.steps, hsplit, List.map_map, hback, List.filter_eq_self.2 hne]

/-- A slash stands between two names. -/
theorem ne_nil_of_slash {before after : List Char} (h : p.toText.toList = before ++ '/' :: after) :
    before ≠ [] ∧ after ≠ [] := by
  have hsplit := p.splitOn_toText
  rw [h, List.splitOn_append_cons_self] at hsplit
  have hnone : [] ∉ p.names.map String.toList := by
    intro hmem
    obtain ⟨name, hname, hnil⟩ := List.mem_map.1 hmem
    exact (p.plain name hname).1 (String.toList_inj.1 hnil)
  rw [← hsplit, List.mem_append, not_or] at hnone
  constructor
  · rintro rfl; exact hnone.1 (by simp)
  · rintro rfl; exact hnone.2 (by simp)

theorem toText_ne_empty : p.toText ≠ "" := by
  intro h
  have hsteps := p.steps_toText
  rw [h] at hsteps
  exact p.ne_nil hsteps.symm

theorem origin_toText : Store.origin p.toText = [] := by
  refine if_neg fun hstart => ?_
  rw [String.startsWith_string_iff] at hstart
  obtain ⟨after, hafter⟩ := hstart
  have hslash : p.toText.toList = [] ++ '/' :: after := hafter.symm
  exact (p.ne_nil_of_slash hslash).1 rfl

theorem endsWith_toText : p.toText.endsWith "/" = false := by
  refine Bool.eq_false_iff.2 fun hend => ?_
  rw [String.endsWith_eq_endsWith_toSlice, String.Slice.endsWith_string_iff, String.copy_toSlice] at hend
  obtain ⟨before, hbefore⟩ := hend
  exact (p.ne_nil_of_slash hbefore.symm).2 rfl

/-- The text is spelled the way paths are shown. -/
theorem toText_ofText : (Path.ofText p.toText).toText = p.toText := by
  have hparts : p.names.filter (· ≠ ".") = p.names :=
    List.filter_eq_self.2 fun name hname => decide_eq_true (p.plain name hname).2.1
  have htake : p.toText.toList.takeWhile (· == '/') = [] := by
    cases h : p.toText.toList with
    | nil => rfl
    | cons c s =>
      refine List.takeWhile_cons_of_neg fun hc => ?_
      have hslash : p.toText.toList = [] ++ '/' :: s := eq_of_beq hc ▸ h
      exact (p.ne_nil_of_slash hslash).1 rfl
  simp only [Path.ofText, Path.toText, htake, steps_toText, hparts]
  simp [p.ne_nil, toText]

end PlainPath

namespace Store

variable {s : Store} {here steps : List String} {name : String}

/-- Every directory lies in a directory. -/
def IsTree (s : Store) : Prop := ∀ name ∈ s.directories, s.isDirectory name.dropLast = true

instance (s : Store) : Decidable s.IsTree := inferInstanceAs (Decidable (∀ name ∈ s.directories, _))

/-- It takes `..` or the root to be a directory that is not in the store. -/
theorem mem_directories (hname : Path.IsPlain name) (h : s.isDirectory (here ++ [name]) = true) :
    here ++ [name] ∈ s.directories := by
  obtain ⟨-, -, hup, hslash⟩ := hname
  have hroot : (here ++ [name] == ["/"]) = false := by
    refine beq_eq_false_iff_ne.2 fun heq => hslash ?_
    cases here with
    | nil => cases heq; exact .head _
    | cons _ here => cases here <;> cases heq
  have hall : (here ++ [name]).all (· == "..") = false := by simp [hup]
  rwa [isDirectory, hroot, hall, Bool.false_or, Bool.false_or, List.contains_iff_mem] at h

theorem IsTree.isDirectory_of_concat (hs : s.IsTree) (hname : Path.IsPlain name)
    (h : s.isDirectory (here ++ [name]) = true) : s.isDirectory here = true := by
  have hparent := hs _ (mem_directories hname h)
  rwa [List.dropLast_concat] at hparent

theorem IsTree.isDirectory_of_append (hs : s.IsTree) (hsteps : ∀ name ∈ steps, Path.IsPlain name)
    (h : s.isDirectory (here ++ steps) = true) : s.isDirectory here = true := by
  induction steps generalizing here with
  | nil => rwa [List.append_nil] at h
  | cons step steps ih =>
    obtain ⟨hstep, hsteps⟩ := List.forall_mem_cons.1 hsteps
    rw [List.append_cons] at h
    exact hs.isDirectory_of_concat hstep (ih hsteps h)

/-- No name is longer than files allow. -/
def Fit (names : List String) : Prop := ∀ name ∈ names, Path.isLongName name = false

/-- Where names lead to `name`, in the directory `dir`. -/
inductive Led (s : Store) (dir name : List String) (fits : Prop) : Place → Prop
  | directory (hfits : fits) (h : s.isDirectory name = true) : Led s dir name fits .directory
  | file (hfits : fits) (hdir : s.isDirectory dir = true) (hnot : s.isDirectory name = false)
    (h : s.files.contains name = true) : Led s dir name fits (.file name)
  | free (hfits : fits) (hdir : s.isDirectory dir = true) (hnot : s.isDirectory name = false)
    (h : s.files.contains name = false) : Led s dir name fits (.free name)
  | nowhere (hdir : s.isDirectory dir = false) : Led s dir name fits .nowhere
  | throughFile (hdir : s.isDirectory dir = false) : Led s dir name fits .throughFile
  | longName (last : Bool) (h : ¬ fits) : Led s dir name fits (.longName last)

theorem fit_nil : Fit [] := fun _ h => absurd h List.not_mem_nil

theorem fit_cons {step : String} : Fit (step :: steps) ↔ Path.isLongName step = false ∧ Fit steps :=
  List.forall_mem_cons

theorem led_last {step : String} (hstep : Path.IsPlain step) (hhere : s.isDirectory here = true) :
    Led s here (here ++ [step]) (Fit [step]) (s.follow here [step]) := by
  rw [follow, if_neg hstep.2.1, if_neg hstep.2.2.1]
  cases hlong : Path.isLongName step with
  | true => exact .longName _ fun h => Bool.false_ne_true ((fit_cons.1 h).1.symm.trans hlong)
  | false =>
    have hfit : Fit [step] := fit_cons.2 ⟨hlong, fit_nil⟩
    cases hdir : s.isDirectory (here ++ [step]) with
    | true => exact .directory hfit hdir
    | false =>
      cases hfile : s.files.contains (here ++ [step]) with
      | true => exact .file hfit hhere hdir hfile
      | false => exact .free hfit hhere hdir hfile

/-- The way to a name goes through its directory, as there is no directory outside a directory. -/
theorem led_follow (hs : s.IsTree) (hne : steps ≠ []) (hsteps : ∀ name ∈ steps, Path.IsPlain name)
    (hhere : s.isDirectory here = true) :
    Led s (here ++ steps.dropLast) (here ++ steps) (Fit steps) (s.follow here steps) := by
  induction steps generalizing here with
  | nil => exact absurd rfl hne
  | cons step steps ih =>
    obtain ⟨hstep, hsteps⟩ := List.forall_mem_cons.1 hsteps
    by_cases hlast : steps = []
    · subst hlast
      simpa using led_last hstep hhere
    · rw [List.dropLast_cons_of_ne_nil hlast, List.append_cons, List.append_cons here step steps,
        follow, if_neg hstep.2.1, if_neg hstep.2.2.1]
      cases hlong : Path.isLongName step with
      | true => exact .longName _ fun h => Bool.false_ne_true ((fit_cons.1 h).1.symm.trans hlong)
      | false =>
        rw [if_neg Bool.false_ne_true, fit_cons, and_iff_right hlong]
        cases hdir : s.isDirectory (here ++ [step]) with
        | true => exact ih hlast hsteps hdir
        | false =>
          have hparent : s.isDirectory (here ++ [step] ++ steps.dropLast) = false := by
            refine Bool.eq_false_iff.2 fun h => Bool.false_ne_true (hdir.symm.trans ?_)
            exact hs.isDirectory_of_append (fun name hname => hsteps name (List.dropLast_subset steps hname)) h
          rw [if_neg Bool.false_ne_true, if_neg hlast, if_neg hlast]
          split
          · exact .throughFile hparent
          · exact .nowhere hparent

/-! ### Writing and reading -/

variable {p : PlainPath} {bytes : List UInt8}

/-- Nothing but a file can be there, and the directory for it is there. -/
structure Accepts (s : Store) (p : PlainPath) : Prop where
  dir : s.isDirectory p.dir = true
  not_directory : s.isDirectory p.names = false
  not_tooLong : ¬ p.TooLong
  not_null : Path.hasNull p.toText = false

/-- What keeps a file from being opened there for writing. -/
def Obstructed (s : Store) (p : PlainPath) : Prop :=
  s.isDirectory p.names = true ∨ s.isDirectory p.dir = false ∨ p.TooLong ∨ Path.hasNull p.toText = true

theorem not_tooLong_iff : ¬ p.TooLong ↔ Path.isLong p.toText = false ∧ Fit p.names := by
  simp [PlainPath.TooLong, Fit]

theorem led_place (hs : s.IsTree) (hlong : Path.isLong p.toText = false) :
    Led s p.dir p.names (Fit p.names) (s.place p.toText) := by
  rw [place, hlong, if_neg Bool.false_ne_true, p.origin_toText, p.steps_toText]
  exact @led_follow s [] p.names hs p.ne_nil p.plain rfl

theorem place_of_accepts (hs : s.IsTree) (h : s.Accepts p) :
    s.place p.toText = if s.files.contains p.names then .file p.names else .free p.names := by
  obtain ⟨hlong, hfit⟩ := not_tooLong_iff.1 h.not_tooLong
  have hled := led_place hs hlong
  cases hplace : s.place p.toText <;> rw [hplace] at hled <;> cases hled
  case file hfile => rw [hfile, if_pos rfl]
  case free hfile => rw [hfile, if_neg Bool.false_ne_true]
  case directory hdir => exact absurd (hdir.symm.trans h.not_directory) Bool.noConfusion
  case nowhere hdir => exact absurd (hdir.symm.trans h.dir) Bool.noConfusion
  case throughFile hdir => exact absurd (hdir.symm.trans h.dir) Bool.noConfusion
  case longName hnot => exact absurd hfit hnot

theorem target_of_accepts (hs : s.IsTree) (h : s.Accepts p) : s.target p.toText = .ok p.names := by
  simp only [target, h.not_null, p.toText_ne_empty, place_of_accepts hs h, p.endsWith_toText]
  cases s.files.contains p.names <;> rfl

theorem accepts_of_target {name : List String} (hs : s.IsTree) (h : s.target p.toText = .ok name) : s.Accepts p := by
  rw [target] at h
  split at h
  · cases h
  · next hnull =>
    rw [Bool.not_eq_true] at hnull
    rw [if_neg p.toText_ne_empty] at h
    cases hlong : Path.isLong p.toText with
    | true =>
      rw [place, if_pos hlong] at h
      cases h
    | false =>
      have hled := led_place hs hlong
      cases hplace : s.place p.toText <;> rw [hplace] at hled h <;> cases hled
      case file hfit hdir hnot _ => exact ⟨hdir, hnot, not_tooLong_iff.2 ⟨hlong, hfit⟩, hnull⟩
      case free hfit hdir hnot _ => exact ⟨hdir, hnot, not_tooLong_iff.2 ⟨hlong, hfit⟩, hnull⟩
      case longName => simp [p.endsWith_toText] at h
      all_goals cases h

theorem accepts_iff : s.Accepts p ↔ ¬ s.Obstructed p := by
  simp only [Obstructed, not_or, Bool.not_eq_true, Bool.not_eq_false]
  exact ⟨fun h => ⟨h.not_directory, h.dir, h.not_tooLong, h.not_null⟩, fun ⟨h₁, h₂, h₃, h₄⟩ => ⟨h₂, h₁, h₃, h₄⟩⟩

theorem exists_target_error_iff (hs : s.IsTree) :
    (∃ fault, s.target p.toText = .error fault) ↔ ¬ s.Accepts p := by
  constructor
  · rintro ⟨fault, h⟩ haccepts
    rw [target_of_accepts hs haccepts] at h; cases h
  · intro h
    cases htarget : s.target p.toText with
    | error fault => exact ⟨fault, rfl⟩
    | ok name => exact absurd (accepts_of_target hs htarget) h

theorem read_of_find? (hs : s.IsTree) (h : s.Accepts p) (hfind : s.files.find? p.names = some bytes) :
    s.read p.toText = .ok bytes := by
  have hplace : s.place p.toText = .file p.names := by
    rw [place_of_accepts hs h, if_pos (OrderedMap.contains_iff.2 ⟨bytes, hfind⟩)]
  simp [read, contents, p.toText_ofText, h.not_null, p.toText_ne_empty, hplace, p.endsWith_toText, hfind]

theorem read_of_not_file (hs : s.IsTree) (hshort : ¬ p.TooLong)
    (h : s.isDirectory p.names = true ∨ s.files.contains p.names = false) :
    s.read p.toText = .error (.noFile p.toText) := by
  obtain ⟨hlong, hfit⟩ := not_tooLong_iff.1 hshort
  have hled := led_place hs hlong
  rw [read, p.toText_ofText]
  split
  · rfl
  · cases hplace : s.place p.toText <;> rw [hplace] at hled <;> cases hled
    case file hnot hcontains => simp [hnot, hcontains] at h
    case longName hnot => exact absurd hfit hnot

theorem place_of_tooLong (hs : s.IsTree) (hdir : s.isDirectory p.dir = true) (h : p.TooLong) :
    ∃ last, s.place p.toText = .longName last := by
  cases hlong : Path.isLong p.toText with
  | true => exact ⟨false, if_pos hlong⟩
  | false =>
    have hnot : ¬ Fit p.names := fun hfit => not_tooLong_iff.2 ⟨hlong, hfit⟩ h
    have hled := led_place hs hlong
    cases hplace : s.place p.toText <;> rw [hplace] at hled <;> cases hled
    case longName last _ => exact ⟨last, rfl⟩
    case nowhere hnone => exact absurd (hnone.symm.trans hdir) Bool.noConfusion
    case throughFile hnone => exact absurd (hnone.symm.trans hdir) Bool.noConfusion
    all_goals exact absurd (by assumption) hnot

theorem target_of_tooLong (hs : s.IsTree) (hdir : s.isDirectory p.dir = true) (h : p.TooLong)
    (hnull : Path.hasNull p.toText = false) : s.target p.toText = .error (.nameTooLong p.toText) := by
  obtain ⟨last, hplace⟩ := place_of_tooLong hs hdir h
  simp [target, hnull, p.toText_ne_empty, hplace, p.endsWith_toText]

theorem read_of_tooLong (hs : s.IsTree) (hdir : s.isDirectory p.dir = true) (h : p.TooLong)
    (hnull : Path.hasNull p.toText = false) : s.read p.toText = .error (.nameTooLong p.toText) := by
  obtain ⟨last, hplace⟩ := place_of_tooLong hs hdir h
  simp [read, p.toText_ofText, hnull, hplace]

end Store

end Acceptor
