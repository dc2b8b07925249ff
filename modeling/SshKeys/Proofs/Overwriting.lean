import SshKeys.Proofs.Session

/-!
# Which files a run replaces

`mayReplace` asks about the one path that a command writes to, if that path exists.
`Accounts` says what follows for the files there were: each is the same afterwards,
unless the path that the question was about led to it and the answer was yes, or for
one of the reasons named beside.

Two commands have such a reason.  A new key pair is two files, and only the path of the
private key is asked about.  New settings are saved after the folders of their path were
made, so a path that did not exist when it was looked at can lead, by `..`, to a file.

* `Session.accounts_output`: output is replaced at its own path after a yes.
* `Session.accounts_generate`, `Session.accounts_initSettings`: the two reasons.
* `Session.files_accounted`: **what becomes of every file, whatever the arguments**.
-/

namespace SshKeys

namespace Session

variable {α β : Type} {paths : List String} {s t u : Session}

/-! ## Questions -/

/-- What is said of a run from `s` to `t`: the question about a path is the only one about a file,
and every file there was is the same, or a yes to that question led to it, or there is another
reason. -/
def Accounts (question : Option (Question × String)) (other : Location → Prop) (s t : Session) :
    Prop :=
  ∃ new, t.events = s.events ++ new ∧
    (∀ q yes, Event.asked q yes ∈ new →
      q = .saveInTheClear ∨ ∃ path, question = some (q, path)) ∧
    ∀ place content mode, s.files.get? place = some (.file content mode) →
      t.files.get? place = some (.file content mode) ∨
      (∃ q path, question = some (q, path) ∧ Event.asked q true ∈ new ∧
        s.files.resolve path = .ok place) ∨ other place

variable {question : Option (Question × String)} {other : Location → Prop} {q : Question}
  {path : String} {yes : Bool}

theorem Moves.accounts (h : Moves [] s t) : Accounts question other s t := by
  obtain ⟨new, hNew, hAsked⟩ := h.events
  refine ⟨new, hNew, fun q yes hMem => .inl (hAsked q yes hMem), fun place content mode hFile => ?_⟩
  rw [h.writes.eq_of_nil]
  exact .inl hFile

theorem Moves.accounts_trans (h : Moves [] s t) (h' : Accounts question other t u) :
    Accounts question other s u := by
  obtain ⟨new, hNew, hAsked⟩ := h.events
  obtain ⟨more, hMore, hAskedMore, hFiles⟩ := h'
  rw [h.writes.eq_of_nil] at hFiles
  refine ⟨new ++ more, ?_, fun q yes hMem => ?_, fun place content mode hFile => ?_⟩
  · rw [hMore, hNew, List.append_assoc]
  · rcases List.mem_append.1 hMem with hMem | hMem
    · exact .inl (hAsked q yes hMem)
    · exact hAskedMore q yes hMem
  · rcases hFiles place content mode hFile with hSame | ⟨q, path, hQuestion, hMem, hPlace⟩ | hOther
    · exact .inl hSame
    · exact .inr (.inl ⟨q, path, hQuestion, List.mem_append_right _ hMem, hPlace⟩)
    · exact .inr (.inr hOther)

/-- Leave to write at a path, with the question that is asked if it exists. -/
def mayReplace (path : String) (q : Question) : SessionM Bool := do
  if ← Console.pathExists path then Console.confirm q else pure true

/-- The session afterwards: nothing is different but what there is no question about, and what was
answered. -/
structure Asked (q : Question) (path : String) (s : Session) (yes : Bool) (t : Session) : Prop where
  files_eq : t.files = s.files
  events : s.files.pathExists path = false ∧ yes = true ∧ t.events = s.events ∨
    s.files.pathExists path = true ∧ t.events = s.events ++ [.asked q yes]

theorem exists_asked (path : String) (q : Question) (s : Session) :
    ∃ yes t, mayReplace path q s = (.ok yes, t) ∧ Asked q path s yes t := by
  have hExists : (Console.pathExists path : SessionM Bool) s =
      (.ok (s.files.pathExists path), s) := rfl
  rw [mayReplace, ExceptState.bind_of_ok hExists]
  cases hFound : s.files.pathExists path with
  | false => exact ⟨true, s, rfl, rfl, .inl ⟨hFound, rfl, rfl⟩⟩
  | true => exact ⟨_, _, rfl, rfl, .inr ⟨hFound, rfl⟩⟩

/-- What is left after the question: files that it was not about. -/
theorem Asked.accounts (hAsked : Asked q path s yes t)
    (hEvents : ∃ new, u.events = t.events ++ new ∧
      ∀ q yes, Event.asked q yes ∈ new → q = .saveInTheClear)
    (hFiles : ∀ place content mode, s.files.get? place = some (.file content mode) →
      u.files.get? place = some (.file content mode) ∨
      (yes = true ∧ s.files.pathExists path = true ∧ s.files.resolve path = .ok place) ∨
      other place) :
    Accounts (some (q, path)) other s u := by
  obtain ⟨new, hNew, hHarmless⟩ := hEvents
  rcases hAsked.events with ⟨hMissing, -, hEq⟩ | ⟨-, hEq⟩
  · rw [hEq] at hNew
    refine ⟨new, hNew, fun q yes hMem => .inl (hHarmless q yes hMem), ?_⟩
    intro place content mode h
    rcases hFiles place content mode h with hSame | ⟨-, hExists, -⟩ | hOther
    · exact .inl hSame
    · rw [hMissing] at hExists
      cases hExists
    · exact .inr (.inr hOther)
  · rw [hEq, List.append_assoc] at hNew
    refine ⟨_, hNew, fun r answer hMem => ?_, fun place content mode h => ?_⟩
    · rcases List.mem_append.1 hMem with hMem | hMem
      · cases List.mem_singleton.1 hMem
        exact .inr ⟨path, rfl⟩
      · exact .inl (hHarmless r answer hMem)
    · rcases hFiles place content mode h with hSame | ⟨rfl, -, hPlace⟩ | hOther
      · exact .inl hSame
      · exact .inr (.inl ⟨q, path, rfl, List.mem_append_left _ (List.mem_singleton.2 rfl), hPlace⟩)
      · exact .inr (.inr hOther)

theorem Accounts.mono {others : Location → Prop} (h : Accounts question other s t)
    (hOther : ∀ place, other place → others place) : Accounts question others s t := by
  obtain ⟨new, hNew, hAsked, hFiles⟩ := h
  refine ⟨new, hNew, hAsked, fun place content mode hFile => ?_⟩
  exact (hFiles place content mode hFile).imp_right (Or.imp_right (hOther place))

/-- What comes first may read, print and ask for passphrases. -/
theorem Within.accounts_bind {x : SessionM α} {f : α → SessionM β} (hx : Within [] x)
    (hf : ∀ a t, t.files = s.files → Accounts question other t (f a t).2) :
    Accounts question other s ((x >>= f) s).2 := by
  have hMoves := hx s
  match hRun : x s with
  | (.error e, t) =>
    rw [hRun] at hMoves
    rw [ExceptState.bind_of_error hRun]
    exact hMoves.accounts
  | (.ok a, t) =>
    rw [hRun] at hMoves
    rw [ExceptState.bind_of_ok hRun]
    exact hMoves.accounts_trans (hf a t hMoves.writes.eq_of_nil)

/-! ## Commands -/

/-- Output is written at its own path, which is asked about, and maybe at others. -/
theorem accounts_output (output : Option String) (paths : List String) {x y : SessionM Unit}
    (hx : Within paths x) (hy : Within [] y) (hNone : output = none → paths = []) (s : Session) :
    Accounts (output.map fun path => (.replaceFile path, path))
      (fun place => ∃ path ∈ paths, output ≠ some path ∧ s.files.resolve path = .ok place) s
      ((mayOutput output >>= fun go => if go = true then x else y) s).2 := by
  cases output with
  | none =>
    rw [hNone rfl] at hx
    exact Moves.accounts (hx s)
  | some path =>
    obtain ⟨yes, t, hRun, hAsked⟩ := exists_asked path (.replaceFile path) s
    have hMay : (mayOutput (some path) : SessionM Bool) s = (.ok yes, t) := hRun
    rw [ExceptState.bind_of_ok hMay]
    cases yes with
    | false =>
      have hMoves := hy t
      refine hAsked.accounts hMoves.events fun place content mode hFile => .inl ?_
      change (y t).2.files.get? place = _
      rwa [hMoves.writes.eq_of_nil, hAsked.files_eq]
    | true =>
      have hMoves := hx t
      refine hAsked.accounts hMoves.events fun place content mode hFile => ?_
      have hSame := hMoves.writes.get?_eq place
      rw [hAsked.files_eq, hFile] at hSame
      rcases hSame with hSame | ⟨written, hMem, hPlace, hSlash⟩
      · exact .inl hSame
      · by_cases hOwn : some path = some written
        · cases hOwn
          exact .inr (.inl ⟨rfl, FileSystem.pathExists_of_file hPlace hFile hSlash, hPlace⟩)
        · exact .inr (.inr ⟨written, hMem, hOwn, hPlace⟩)

/-- The files a new key pair is written to. -/
def pairPaths : Option String → List String
  | none => []
  | some path => [path, Path.publicKey path]

theorem accounts_generate (r : GenerateRequest) (settings : Settings) (s : Session) :
    Accounts (r.output.map fun path => (.replaceFile path, path))
      (fun place => ∃ path, r.output = some path ∧
        s.files.resolve (Path.publicKey path) = .ok place) s
      ((r.run settings : SessionM Unit) s).2 := by
  rw [GenerateRequest.run]
  refine (accounts_output r.output (pairPaths r.output) ?_ (within_printLine _) ?_ s).mono ?_
  · extract_lets finish
    have hFinish (passphrase : Option String) :
        Within (pairPaths r.output) (finish passphrase) := by
      refine (within_print _).bind fun _ => (within_draw _).bind fun key =>
        (within_printLine _).bind fun _ => ?_
      cases r.output with
      | none =>
        exact (within_printLine _).bind fun _ => (within_print _).bind fun _ => within_printLines _
      | some path =>
        refine (within_print _).bind fun _ => ?_
        refine (within_writeFile _ path _ List.mem_cons_self).bind fun _ => ?_
        refine (within_writeFile _ _ _ (List.mem_cons_of_mem _ List.mem_cons_self)).bind fun _ => ?_
        exact (within_printLine _).bind fun _ => (within_printLines _).bind fun _ =>
          within_printLines _
    split
    · exact (within_pure none).bind hFinish
    · refine within_newPassphrase.bind fun passphrase => ?_
      exact (within_printLine _).bind fun _ => (within_pure passphrase).bind hFinish
  · intro hNone
    rw [hNone]
    rfl
  · rintro place ⟨path, hMem, hOwn, hPlace⟩
    cases hOutput : r.output with
    | none =>
      rw [hOutput] at hMem
      cases hMem
    | some output =>
      rw [hOutput] at hMem hOwn
      rcases List.mem_cons.1 hMem with rfl | hMem
      · exact absurd rfl hOwn
      · exact ⟨output, rfl, List.mem_singleton.1 hMem ▸ hPlace⟩

theorem accounts_convert (r : ConvertRequest) (settings : Settings) (s : Session) :
    Accounts (r.output.map fun path => (.replaceFile path, path)) (fun _ => False) s
      ((r.run settings : SessionM Unit) s).2 := by
  rw [ConvertRequest.run]
  refine (within_readKeyText r.source).accounts_bind fun text t _ => ?_
  refine (accounts_output r.output r.output.toList ?_ (within_printLine _) ?_ t).mono ?_
  · refine (within_unlock _).bind fun opened => ?_
    split
    extract_lets finish
    have hFinish (passphrase : Option String) : Within r.output.toList (finish passphrase) := by
      refine (within_print _).bind fun _ => (within_draw _).bind fun key =>
        (within_printLine _).bind fun _ => ?_
      cases r.output with
      | none =>
        exact (within_printLine _).bind fun _ => (within_print _).bind fun _ =>
          within_printLines _
      | some path =>
        refine (within_writeFile _ path _ List.mem_cons_self).bind fun _ => ?_
        exact (within_printLine _).bind fun _ => within_printLines _
    split
    · exact (within_pure none).bind hFinish
    · exact (within_printLine _).bind fun _ => within_newPassphrase.bind hFinish
  · intro hNone
    rw [hNone]
    rfl
  · rintro place ⟨path, hMem, hOwn, -⟩
    exact hOwn (Option.mem_toList.1 hMem)

/-- Saving makes folders, and then writes the settings at their path. -/
theorem exists_save (settings : Settings) (path : String) (s : Session) :
    ∃ middle fs, ((settings.save path : SessionM Unit) s).2 = { s with files := fs } ∧
      FileSystem.Grows s.files middle ∧
      (fs = middle ∨ ∃ content, middle.write .ownerOnly path content = .ok fs) := by
  have hFolder := updateFiles_eq (Settings.withFolder · path) s
  rw [Settings.save_eq]
  cases hMade : Settings.withFolder s.files path with
  | error fault =>
    rw [hMade] at hFolder
    rw [ExceptState.bind_of_error hFolder]
    exact ⟨s.files, s.files, rfl, .refl _, .inl rfl⟩
  | ok middle =>
    rw [hMade] at hFolder
    rw [ExceptState.bind_of_ok hFolder, updateFiles_eq]
    have hGrows := Settings.grows_withFolder hMade
    cases hWrite : middle.write .ownerOnly path (Bytes.ofString settings.toText) with
    | error fault => exact ⟨middle, middle, rfl, hGrows, .inl rfl⟩
    | ok fs => exact ⟨middle, fs, rfl, hGrows, .inr ⟨_, hWrite⟩⟩

theorem initSettings_eq (path : String) : (initSettings path : SessionM Unit) =
    mayReplace path .replaceSettings >>= fun go =>
      if go = true then do
        Settings.save { } path
        printLine s!"Настройки сохранены: {path}"
      else printCancelled := by
  rw [initSettings, mayReplace, bind_assoc]
  congr 1
  funext found
  cases found <;> rfl

theorem accounts_initSettings (path : String) {s : Session} (hTree : s.files.IsTree) :
    Accounts (some (.replaceSettings, path))
      (fun place => s.files.resolve path = .error .notFound ∧ ".." ∈ Path.names path ∧
        ((initSettings path : SessionM Unit) s).2.files.resolve path = .ok place) s
      ((initSettings path : SessionM Unit) s).2 := by
  rw [initSettings_eq]
  obtain ⟨yes, t, hRun, hAsked⟩ := exists_asked path .replaceSettings s
  rw [ExceptState.bind_of_ok hRun]
  cases yes with
  | false =>
    have hMoves : Moves [] t ((printCancelled : SessionM Unit) t).2 := within_printLine _ t
    refine hAsked.accounts hMoves.events fun place content mode hFile => .inl ?_
    change ((printCancelled : SessionM Unit) t).2.files.get? place = _
    rwa [hMoves.writes.eq_of_nil, hAsked.files_eq]
  | true =>
    obtain ⟨middle, fs, hSave, hGrows, hWritten⟩ := exists_save { } path t
    rw [hAsked.files_eq] at hGrows
    -- The line that follows leaves the files as saving left them.
    have hMoves : Moves [] ((Settings.save { } path : SessionM Unit) t).2
        ((Settings.save { } path >>= fun _ => printLine s!"Настройки сохранены: {path}" :
          SessionM Unit) t).2 := moves_bind _ (fun _ => within_printLine _) t
    rw [hSave] at hMoves
    refine hAsked.accounts hMoves.events fun place content mode hFile => ?_
    have hFiles := hMoves.writes.eq_of_nil
    rw [if_pos rfl, hFiles]
    rcases hWritten with rfl | ⟨written, hWrite⟩
    · exact .inl (hGrows.keeps place _ hFile)
    · exact (hGrows.write_eq_ok hTree hFile hWrite).imp_right (Or.imp_left fun h => ⟨rfl, h⟩)

theorem accounts_import (source : String) (comment : Option String) (asJson : Bool) (s : Session) :
    Accounts question other s ((runImport source comment asJson : SessionM Unit) s).2 := by
  refine Moves.accounts (Within.bind (within_readKeyText source) (fun text => ?_) s)
  refine (within_unlock _).bind fun opened => ?_
  split
  split
  · exact within_printLine _
  · exact within_printLines _

theorem accounts_inspect (source : String) (asJson : Bool) (s : Session) :
    Accounts question other s ((runInspect source asJson : SessionM Unit) s).2 := by
  refine Moves.accounts (Within.bind (within_readKeyText source) (fun text => ?_) s)
  refine (within_ofExcept _).bind fun report => ?_
  split
  · exact within_printLine _
  · exact within_printLines _

theorem accounts_showSettings (path : String) (settings : Settings) (s : Session) :
    Accounts question other s ((showSettings path settings : SessionM Unit) s).2 := by
  refine Moves.accounts (Within.bind (within_pathExists path) (fun found => ?_) s)
  exact within_printLines _

end Session

/-! ## Requests -/

/-- The settings file of a request: the one it names, or the usual one. -/
def Request.settingsPath? (r : Request) (s : Session) : Option String :=
  r.settings.or (s.settingsFolder.map fun folder =>
    Path.join (Path.join folder "sshkey-codec") "config.json")

/-- The only question about a file that a request comes to, and the path it is about. -/
def Request.question? (r : Request) (s : Session) : Option (Question × String) :=
  match r.task with
  | .generate g => g.output.map fun path => (.replaceFile path, path)
  | .convert c => c.output.map fun path => (.replaceFile path, path)
  | .initSettings => (r.settingsPath? s).map fun path => (.replaceSettings, path)
  | .importKey .. | .inspect .. | .showSettings => none

/-- Where a request writes without a question: at the path of the public key of a new pair, and
through a missing folder back to where a file is. -/
inductive Request.Unasked (r : Request) (s t : Session) (place : Location) : Prop
  | publicKey {g : GenerateRequest} {path : String} (hTask : r.task = .generate g)
      (hOutput : g.output = some path) (hPlace : s.files.resolve (Path.publicKey path) = .ok place)
  | through {path : String} (hTask : r.task = .initSettings)
      (hPath : r.settingsPath? s = some path) (hMissing : s.files.resolve path = .error .notFound)
      (hNames : ".." ∈ Path.names path) (hPlace : t.files.resolve path = .ok place)

namespace Session

/-- What a request does once its settings file is known. -/
def perform (r : Request) (path : String) : SessionM Unit :=
  match r.task with
  | .initSettings => initSettings path
  | .generate g => do g.run (← Settings.load path)
  | .convert c => do c.run (← Settings.load path)
  | .importKey source comment asJson => do
    let _ ← Settings.load path
    runImport source comment asJson
  | .inspect source asJson => do
    let _ ← Settings.load path
    runInspect source asJson
  | .showSettings => do showSettings path (← Settings.load path)

theorem run_of_settingsPath {r : Request} {path : String} (h : r.settingsPath? s = some path) :
    (r.run : SessionM Unit) s = perform r path s := by
  obtain ⟨settings, task⟩ := r
  cases settings with
  | some own =>
    cases h
    rfl
  | none =>
    obtain ⟨folder, hFolder, rfl⟩ := Option.map_eq_some_iff.1 h
    have hUsual : (Settings.usualPath : SessionM String) s =
        (.ok (Path.join (Path.join folder "sshkey-codec") "config.json"), s) := by
      have hGet : (Console.settingsFolder : SessionM (Option String)) s = (.ok (some folder), s) :=
        congrArg (fun f => (Except.ok f, s)) hFolder
      exact ExceptState.bind_of_ok hGet
    exact ExceptState.bind_of_ok hUsual

theorem run_of_no_settingsPath {r : Request} (h : r.settingsPath? s = none) :
    (r.run : SessionM Unit) s = (.error (.invalidInput .noSettingsFolder), s) := by
  obtain ⟨settings, task⟩ := r
  cases settings with
  | some own => cases h
  | none =>
    have hUsual : (Settings.usualPath : SessionM String) s =
        (.error (.invalidInput .noSettingsFolder), s) := by
      have hGet : (Console.settingsFolder : SessionM (Option String)) s = (.ok none, s) :=
        congrArg (fun f => (Except.ok f, s)) (Option.map_eq_none_iff.1 h)
      exact ExceptState.bind_of_ok hGet
    exact ExceptState.bind_of_error hUsual

/-- **A request replaces a file where its question led and got a yes**, where a new public key
goes, and where a missing folder let `..` lead. -/
theorem accounts_request (r : Request) {s : Session} (hTree : s.files.IsTree) :
    Accounts (r.question? s) (r.Unasked s ((r.run : SessionM Unit) s).2) s
      ((r.run : SessionM Unit) s).2 := by
  cases hPath : r.settingsPath? s with
  | none =>
    rw [run_of_no_settingsPath hPath]
    exact (Moves.refl [] s).accounts
  | some path =>
    rw [run_of_settingsPath hPath, perform, Request.question?]
    cases hTask : r.task with
    | generate g =>
      refine (within_load path).accounts_bind fun settings t hFiles => ?_
      refine (accounts_generate g settings t).mono ?_
      rintro place ⟨output, hOutput, hPlace⟩
      rw [hFiles] at hPlace
      exact .publicKey hTask hOutput hPlace
    | convert c =>
      refine (within_load path).accounts_bind fun settings t _ => ?_
      exact (accounts_convert c settings t).mono fun _ h => h.elim
    | importKey source comment asJson =>
      exact (within_load path).accounts_bind fun _ t _ => accounts_import source comment asJson t
    | inspect source asJson =>
      exact (within_load path).accounts_bind fun _ t _ => accounts_inspect source asJson t
    | showSettings =>
      exact (within_load path).accounts_bind fun settings t _ =>
        accounts_showSettings path settings t
    | initSettings =>
      rw [hPath]
      refine (accounts_initSettings path hTree).mono ?_
      rintro place ⟨hMissing, hNames, hPlace⟩
      exact .through hTask hPath hMissing hNames hPlace

theorem run_snd (s : Session) (arguments : List String) :
    (s.run arguments).2 = ((runArguments arguments : SessionM Ending) s).2 := by
  rw [Session.run]
  change _ = (StateT.run (ExceptT.run (runArguments arguments : SessionM Ending)) s).2
  rcases StateT.run (ExceptT.run (runArguments arguments : SessionM Ending)) s with ⟨_ | _, t⟩
  · rfl
  · rfl

/-- A request that fails leaves what it did before. -/
theorem run_request {r : Request} {arguments : List String}
    (h : Request.ofArguments arguments = .ok r) (s : Session) :
    (s.run arguments).2 = ((r.run : SessionM Unit) s).2 := by
  rw [run_snd, runArguments, h]
  rcases hRun : (r.run : SessionM Unit) s with ⟨e | _, t⟩
  · have hFailed : (r.run >>= fun _ => pure .done : SessionM Ending) s = (.error e, t) :=
      ExceptState.bind_of_error hRun
    exact congrArg Prod.snd (ExceptState.tryCatch_of_error hFailed)
  · have hDone : (r.run >>= fun _ => pure .done : SessionM Ending) s = (.ok .done, t) :=
      ExceptState.bind_of_ok hRun
    exact congrArg Prod.snd (ExceptState.tryCatch_of_ok hDone)

theorem run_no_request {e : NoRequest} {arguments : List String}
    (h : Request.ofArguments arguments = .error e) (s : Session) :
    Moves [] s (s.run arguments).2 := by
  have hRun : Within [] (runArguments arguments : SessionM Ending) := by
    rw [runArguments, h]
    cases e with
    | help => exact (within_printLines usage).bind fun _ => within_pure _
    | version => exact (within_printLine versionText).bind fun _ => within_pure _
    | misuse => exact within_pure _
  rw [run_snd]
  exact hRun s

/-- **What becomes of the files there were.**  If the arguments are a request, the only question
about a file is the one of `Request.question?`, and a file that is not the same afterwards is where
the path of this question led when it was answered with yes, or where the request writes without a
question: at the path of the public key of a new pair, or for new settings at a path that led
through a missing folder and `..`.  Arguments that are no request change nothing. -/
theorem files_accounted {s : Session} (hTree : s.files.IsTree) (arguments : List String) :
    (∀ r, Request.ofArguments arguments = .ok r →
      Accounts (r.question? s) (r.Unasked s (s.run arguments).2) s (s.run arguments).2) ∧
    ∀ e, Request.ofArguments arguments = .error e → (s.run arguments).2.files = s.files := by
  constructor
  · intro r hRequest
    rw [run_request hRequest]
    exact accounts_request r hTree
  · intro e hRequest
    exact (run_no_request hRequest s).writes.eq_of_nil

/-- Whether the user was only shown something. -/
def isPrinted : Event → Bool
  | .printed _ => true
  | .asked .. => false

theorem printed_of_all {events : List Event} (h : events.all isPrinted = true) :
    ∀ e ∈ events, ∃ text, e = .printed text := by
  intro e he
  have hOne := List.all_eq_true.1 h e he
  cases e with
  | printed text => exact ⟨text, rfl⟩
  | asked q yes => cases hOne

/-- Whether there is a file at a place, and nothing in it. -/
def isEmptyFile : Option Entry → Bool
  | some (.file [] _) => true
  | _ => false

/-- New settings at `a/../b` where there is no `a`: the empty file `b` is replaced, and nothing was
asked. -/
theorem files_accounted_through :
    let s : Session := { files := { entries := [(["b"], .file [] 0o644)] } }
    let t := (s.run ["--config", "a/../b", "config", "init"]).2
    s.files.IsTree ∧
      Accounts (some (.replaceSettings, "a/../b"))
        (Request.Unasked ⟨some "a/../b", .initSettings⟩ s t) s t ∧
      (∀ e ∈ t.events, ∃ text, e = .printed text) ∧
      ∀ mode, t.files.get? ["b"] ≠ some (.file [] mode) := by
  intro s t
  have hTree : s.files.IsTree := by decide +kernel
  have hRequest : Request.ofArguments ["--config", "a/../b", "config", "init"] =
      .ok ⟨some "a/../b", .initSettings⟩ := by decide +kernel
  have hWritten : isEmptyFile (t.files.get? ["b"]) = false := by decide +kernel
  refine ⟨hTree, (files_accounted hTree _).1 _ hRequest, printed_of_all (by decide +kernel),
    fun mode hEq => ?_⟩
  rw [hEq] at hWritten
  cases hWritten

/-- A new key pair at `k`: the empty file `k.pub` is replaced, and nothing was asked. -/
theorem not_asked_about_public_key :
    let s : Session :=
      { files := { entries := [(["k.pub"], .file [] 0o644)] }, random := Bytes.zeros 32 }
    let t := (s.run ["generate", "--no-passphrase", "-o", "k", "--config", "c"]).2
    s.files.IsTree ∧ s.files.get? ["k.pub"] = some (.file [] 0o644) ∧
      (∀ e ∈ t.events, ∃ text, e = .printed text) ∧
      ∀ mode, t.files.get? ["k.pub"] ≠ some (.file [] mode) := by
  intro s t
  have hTree : s.files.IsTree := by decide +kernel
  have hWritten : isEmptyFile (t.files.get? ["k.pub"]) = false := by decide +kernel
  refine ⟨hTree, rfl, printed_of_all (by decide +kernel), fun mode hEq => ?_⟩
  rw [hEq] at hWritten
  cases hWritten

end Session

end SshKeys
