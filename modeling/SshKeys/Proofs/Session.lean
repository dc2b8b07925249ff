import SshKeys.Command.Run
import SshKeys.Proofs.FileSystem

/-!
# Steps of a session that ask for no leave

`Session.Within paths` holds of a step that writes nothing but files at these paths and
asks nobody whether it may.  It is kept by sequences, so what a command is within is
read off its last steps; asking for passphrases, reading and printing are within no
paths at all.

Saving settings is two steps on the files (`Settings.save_eq`): it fails only where the
folder or the file cannot be made (`Settings.save_outcome`).
-/

namespace SshKeys

/-! ## Steps -/

namespace Session

open FileSystem (Writes)

variable {α β : Type} {paths : List String} {x : SessionM α} {f : α → SessionM β} {s t u : Session}

/-- From one session to another, files are written at some paths only, and nobody is asked whether
a file may be replaced. -/
structure Moves (paths : List String) (s t : Session) : Prop where
  writes : Writes paths s.files t.files
  events : ∃ new, t.events = s.events ++ new ∧
    ∀ q yes, Event.asked q yes ∈ new → q = .saveInTheClear

theorem Moves.refl (paths : List String) (s : Session) : Moves paths s s :=
  ⟨.nothing _, [], (List.append_nil _).symm, fun _ _ h => nomatch h⟩

theorem Moves.trans (h : Moves paths s t) (h' : Moves paths t u) : Moves paths s u := by
  obtain ⟨new, hNew, hAsked⟩ := h.events
  obtain ⟨more, hMore, hAskedMore⟩ := h'.events
  refine ⟨h.writes.trans h'.writes, new ++ more, ?_, fun q yes hMem => ?_⟩
  · rw [hMore, hNew, List.append_assoc]
  · rcases List.mem_append.1 hMem with hMem | hMem
    · exact hAsked q yes hMem
    · exact hAskedMore q yes hMem

/-- The same of a step, wherever it starts and however it ends. -/
def Within (paths : List String) (x : SessionM α) : Prop :=
  ∀ s, Moves paths s (x s).2

/-- What follows a step starts where the step ends, if it is taken at all. -/
theorem moves_bind (x : SessionM α) (hf : ∀ a, Within paths (f a)) (s : Session) :
    Moves paths (x s).2 ((x >>= f) s).2 := by
  match hRun : x s with
  | (.ok a, t) =>
    rw [ExceptState.bind_of_ok hRun]
    exact hf a t
  | (.error e, t) =>
    rw [ExceptState.bind_of_error hRun]
    exact .refl paths t

theorem Within.bind (hx : Within paths x) (hf : ∀ a, Within paths (f a)) :
    Within paths (x >>= f) :=
  fun s => (hx s).trans (moves_bind x hf s)

theorem within_pure (a : α) : Within paths (pure a : SessionM α) :=
  Moves.refl paths

theorem within_throw (e : Failure) : Within paths (throw e : SessionM α) :=
  Moves.refl paths

theorem within_ofExcept (x : Except Failure α) :
    Within paths (MonadExcept.ofExcept x : SessionM α) := by
  cases x with
  | ok a => exact within_pure a
  | error e => exact within_throw e

theorem within_get : Within paths (get : SessionM Session) :=
  Moves.refl paths

/-- A change of what is still to come: the input, what will be typed, the random bytes. -/
theorem within_modify {g : Session → Session} (hFiles : ∀ s, (g s).files = s.files)
    (hEvents : ∀ s, (g s).events = s.events) : Within paths (modify g : SessionM Unit) := by
  intro s
  change Moves paths s (g s)
  refine ⟨?_, [], ?_, fun _ _ h => nomatch h⟩
  · rw [hFiles]
    exact .nothing _
  · rw [hEvents, List.append_nil]

theorem within_log {e : Event} (h : ∀ q yes, e = .asked q yes → q = .saveInTheClear) :
    Within paths (log e) :=
  fun _ => ⟨.nothing _, [e], rfl, fun q yes hMem => h q yes (List.mem_singleton.1 hMem).symm⟩

theorem within_print (text : String) : Within paths (Console.print text : SessionM Unit) :=
  within_log fun _ _ h => nomatch h

theorem within_confirm : Within paths (Console.confirm .saveInTheClear : SessionM Bool) := by
  refine within_get.bind fun now => ?_
  obtain ⟨line, rest⟩ := cutLine now.input
  refine Within.bind (within_modify ?_ ?_) fun _ => ?_
  · exact fun _ => rfl
  · exact fun _ => rfl
  · refine (within_log fun _ _ h => ?_).bind fun _ => within_pure _
    exact (Event.asked.inj h).1.symm

theorem within_files? (g : FileSystem → Except IoFault α) : Within paths (files? g) := by
  refine within_get.bind fun now => ?_
  cases g now.files with
  | ok a => exact within_pure a
  | error fault => exact within_throw _

theorem within_readFile (path : String) : Within paths (Console.readFile path : SessionM Bytes) :=
  within_files? _

theorem within_pathExists (path : String) :
    Within paths (Console.pathExists path : SessionM Bool) :=
  within_get.bind fun _ => within_pure _

theorem within_promptBound : Within paths (Console.promptBound : SessionM Nat) :=
  within_get.bind fun _ => within_pure _

theorem within_readInput : Within paths (Console.readInput : SessionM Bytes) := by
  refine within_get.bind fun _ => ?_
  refine Within.bind (within_modify ?_ ?_) fun _ => within_pure _ <;> exact fun _ => rfl

theorem within_askPassphrase (p : Passphrase) :
    Within paths (Console.askPassphrase p : SessionM String) := by
  refine within_get.bind fun now => ?_
  match now.typed with
  | none => exact within_throw _
  | some [] => exact within_throw _
  | some (line :: rest) =>
    refine Within.bind (within_modify ?_ ?_) fun _ => within_pure _ <;> exact fun _ => rfl

theorem within_draw (r : Random α) : Within paths (Console.draw r : SessionM α) := by
  refine within_get.bind fun now => ?_
  match r.run now.random with
  | .error f => exact within_throw f
  | .ok (a, rest) =>
    refine Within.bind (within_modify ?_ ?_) fun _ => within_pure _ <;> exact fun _ => rfl

theorem files?_eq (g : FileSystem → Except IoFault α) (s : Session) :
    files? g s = (match g s.files with
      | .ok a => .ok a
      | .error fault => .error (.io fault), s) := by
  have hGet : (get : SessionM Session) s = (.ok s, s) := rfl
  rw [files?, ExceptState.bind_of_ok hGet]
  cases g s.files <;> rfl

/-- A change of the files is written down, or there is none and the step fails. -/
theorem updateFiles_eq (g : FileSystem → Except IoFault FileSystem) (s : Session) :
    updateFiles g s = match g s.files with
      | .ok fs => (.ok (), { s with files := fs })
      | .error fault => (.error (.io fault), s) := by
  have hFiles := files?_eq g s
  cases h : g s.files with
  | ok fs =>
    rw [h] at hFiles
    exact ExceptState.bind_of_ok hFiles
  | error fault =>
    rw [h] at hFiles
    exact ExceptState.bind_of_error hFiles

theorem within_writeFile (access : Access) (path : String) (content : Bytes)
    (hPath : path ∈ paths) :
    Within paths (Console.writeFile access path content : SessionM Unit) := by
  intro s
  change Moves paths s (updateFiles (·.write access path content) s).2
  rw [updateFiles_eq]
  cases hWrite : s.files.write access path content with
  | ok fs =>
    exact ⟨.more (.nothing _) hPath hWrite, [], (List.append_nil _).symm,
      fun _ _ h => nomatch h⟩
  | error fault => exact .refl paths s

/-! ## Passphrases and settings -/

theorem within_printLine (text : String) : Within paths (printLine text : SessionM Unit) :=
  within_print _

theorem within_printLines (lines : List String) :
    Within paths (printLines lines : SessionM Unit) := by
  induction lines with
  | nil => exact within_pure ()
  | cons line lines ih => exact (within_printLine line).bind fun _ => ih

theorem within_newPassphraseWithin (left : Nat) :
    Within paths (newPassphraseWithin left : SessionM (Option String)) := by
  induction left with
  | zero => exact within_throw _
  | succ left ih =>
    refine (within_askPassphrase _).bind fun passphrase => ?_
    split
    · refine within_confirm.bind fun yes => ?_
      split
      · exact within_pure none
      · exact ih
    · refine (within_askPassphrase _).bind fun again => ?_
      split
      · exact within_pure _
      · exact (within_printLine _).bind fun _ => ih

theorem within_newPassphrase : Within paths (newPassphrase : SessionM (Option String)) :=
  (within_printLines _).bind fun _ =>
    within_promptBound.bind fun left => within_newPassphraseWithin left

theorem within_askUntilOpen (attempt : Option String → Except Failure α) (left : Nat) :
    Within paths (askUntilOpen attempt left : SessionM (α × String)) := by
  induction left with
  | zero => exact within_throw _
  | succ left ih =>
    refine (within_askPassphrase _).bind fun passphrase => ?_
    split
    · exact within_pure _
    · split
      · exact (within_printLine _).bind fun _ => ih
      · exact within_throw _

theorem within_unlock (attempt : Option String → Except Failure α) :
    Within paths (unlock attempt : SessionM (α × Option String)) := by
  rw [unlock]
  split
  · exact within_pure _
  · exact (within_askUntilOpen attempt maxAttempts).bind fun _ => within_pure _
  · exact within_throw _

theorem within_load (path : String) : Within paths (Settings.load path : SessionM Settings) := by
  refine (within_pathExists path).bind fun found => ?_
  split
  · exact (within_readFile path).bind fun _ => within_ofExcept _
  · exact within_pure _

theorem within_readKeyText (path : String) :
    Within paths (readKeyText path : SessionM String) := by
  have hText (x : SessionM Bytes) (hx : Within paths x) :
      Within paths (x >>= fun b => MonadExcept.ofExcept (textOf b)) :=
    hx.bind fun _ => within_ofExcept _
  rw [readKeyText]
  split
  · exact hText _ within_readInput
  · exact hText _ (within_readFile path)

end Session

/-! ## Saving settings -/

namespace Settings

/-- The files in which the folder of a path was made, if there has to be one. -/
def withFolder (fs : FileSystem) (path : String) : Except IoFault FileSystem :=
  if Path.parent path ≠ "" ∧ !fs.pathExists (Path.parent path) then
    fs.createFolders (Path.parent path)
  else .ok fs

theorem grows_withFolder {before middle : FileSystem} {path : String}
    (h : withFolder before path = .ok middle) : FileSystem.Grows before middle := by
  rw [withFolder] at h
  split at h
  · exact FileSystem.grows_createFolders h
  · cases h
    exact .refl _

/-- The files after one was written at a path in this way. -/
def writeInFolder (fs : FileSystem) (path : String) (content : Bytes) :
    Except IoFault FileSystem := do
  (← withFolder fs path).write .ownerOnly path content

theorem read_of_writeInFolder {before after : FileSystem} {path : String} {content : Bytes}
    (h : writeInFolder before path content = .ok after) : after.read path = .ok content := by
  obtain ⟨_, -, hWrite⟩ := Result.bind_eq_ok_iff.1 h
  exact FileSystem.read_of_write hWrite

/-- Saving is its two steps on the files. -/
theorem save_eq (s : Settings) (path : String) (st : Session) :
    (s.save path : SessionM Unit) st =
      (Session.updateFiles (withFolder · path) >>= fun _ =>
        Session.updateFiles (·.write .ownerOnly path (Bytes.ofString s.toText))) st := by
  have hExists : (Console.pathExists (Path.parent path) : SessionM Bool) st =
      (.ok (st.files.pathExists (Path.parent path)), st) := rfl
  rw [Settings.save, ExceptState.bind_of_ok hExists]
  by_cases hMake : Path.parent path ≠ "" ∧ (!st.files.pathExists (Path.parent path)) = true
  · have hStep : Session.updateFiles (withFolder · path) st =
        Session.updateFiles (·.createFolders (Path.parent path)) st := by
      rw [Session.updateFiles_eq, Session.updateFiles_eq, withFolder, if_pos hMake]
    rw [if_pos hMake, ExceptState.bind_congr hStep]
    rfl
  · have hStep : Session.updateFiles (withFolder · path) st = (.ok (), st) := by
      rw [Session.updateFiles_eq, withFolder, if_neg hMake]
    rw [if_neg hMake, ExceptState.bind_of_ok hStep]
    rfl

/-- Saving does what can be done with the files, and fails only as they do. -/
theorem save_outcome (s : Settings) (path : String) (st : Session) :
    match writeInFolder st.files path (Bytes.ofString s.toText) with
    | .ok fs => (s.save path : SessionM Unit) st = (.ok (), { st with files := fs })
    | .error fault => ((s.save path : SessionM Unit) st).1 = .error (.io fault) := by
  have hFolder := Session.updateFiles_eq (withFolder · path) st
  rw [save_eq, writeInFolder]
  cases hMade : withFolder st.files path with
  | error fault =>
    rw [hMade] at hFolder
    rw [ExceptState.bind_of_error hFolder]
    rfl
  | ok middle =>
    rw [hMade] at hFolder
    have hBoth : (.ok middle >>= fun fs : FileSystem =>
        fs.write .ownerOnly path (Bytes.ofString s.toText)) =
        middle.write .ownerOnly path (Bytes.ofString s.toText) := rfl
    rw [ExceptState.bind_of_ok hFolder, Session.updateFiles_eq, hBoth]
    cases middle.write .ownerOnly path (Bytes.ofString s.toText) <;> rfl

end Settings

end SshKeys
