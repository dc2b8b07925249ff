import Mathlib.Data.List.Induction
import SshKeys.FileSystem
import SshKeys.Proofs.Steps

/-!
# Paths in a tree that changes

Writing a file changes one entry, and never one that leads anywhere: every path goes
where it went.  Making folders keeps every entry; only a path that led to nothing can
lead elsewhere afterwards, and in a whole tree only one with `..` in it can then lead
to a file that was there before.

* `FileSystem.Writes.get?_eq`: **a file that writing changes is one that a path led to
  before**.
* `FileSystem.grows_createFolders`, `FileSystem.Grows.resolve_eq`: folders.
* `FileSystem.Grows.resolve_of_tree`: **without `..`, a file that a path leads to in the
  grown tree is one it led to before**.
-/

namespace SshKeys.FileSystem

variable {fs before after : FileSystem} {place here there other : Location} {e : Entry}
  {path name : String} {names : List String}

/-! ## One entry -/

theorem get?_put_self (hPlace : place ≠ []) : (fs.put place e).get? place = some e := by
  rw [get?_put, if_pos ⟨hPlace, rfl⟩]

theorem get?_put_of_ne (h : other ≠ place) : (fs.put place e).get? other = fs.get? other := by
  rw [get?_put, if_neg fun hBoth => h hBoth.2]

theorem ne_nil_of_ne_folder (h : fs.get? place ≠ some .folder) : place ≠ [] := by
  rintro rfl
  exact h rfl

/-- A file makes no folder and takes none away. -/
theorem get?_put_eq_folder_iff {content : Bytes} {mode : Nat} (h : fs.get? place ≠ some .folder) :
    (fs.put place (.file content mode)).get? other = some .folder ↔
      fs.get? other = some .folder := by
  by_cases hOther : other = place
  · rw [hOther, get?_put_self (ne_nil_of_ne_folder h)]
    constructor
    · intro hFile
      cases hFile
    · intro hFolder
      exact absurd hFolder h
  · rw [get?_put_of_ne hOther]

/-! ## Walks -/

theorem enter_congr (h : before.get? here = after.get? here) (name : String) :
    before.enter here name = after.enter here name := by
  rw [enter, enter, h]

theorem folder_of_enter (h : fs.enter here name = .ok there) : fs.get? here = some .folder := by
  rw [enter] at h
  split at h
  · cases h
  · cases h
  · next hFolder => exact hFolder

theorem prefix_of_enter (hName : name ≠ "..") (h : fs.enter here name = .ok there) :
    here <+: there := by
  rw [enter, folder_of_enter h] at h
  dsimp only at h
  rw [if_neg hName] at h
  split at h
  · cases h
    exact List.prefix_rfl
  · split at h
    · cases h
    · cases h
      exact List.prefix_append ..

/-- Without `..`, a walk only goes on. -/
theorem prefix_of_walk (hNames : ".." ∉ names) (h : names.foldlM fs.enter here = .ok there) :
    here <+: there := by
  induction names generalizing here with
  | nil =>
    cases h
    exact List.prefix_rfl
  | cons name names ih =>
    rw [List.foldlM_cons] at h
    obtain ⟨next, hEnter, hRest⟩ := Result.bind_eq_ok_iff.1 h
    rw [List.mem_cons, not_or] at hNames
    exact (prefix_of_enter (Ne.symm hNames.1) hEnter).trans (ih hNames.2 hRest)

/-- Where all folders are kept, every walk is. -/
theorem walk_of_folders (hFolders : ∀ p, before.get? p = some .folder → after.get? p = some .folder)
    (h : names.foldlM before.enter here = .ok there) :
    names.foldlM after.enter here = .ok there := by
  induction names generalizing here with
  | nil => exact h
  | cons name names ih =>
    rw [List.foldlM_cons] at h ⊢
    obtain ⟨next, hEnter, hRest⟩ := Result.bind_eq_ok_iff.1 h
    have hFolder := folder_of_enter hEnter
    rw [enter_congr (hFolder.trans (hFolders here hFolder).symm)] at hEnter
    exact Result.bind_eq_ok_iff.2 ⟨next, hEnter, ih hRest⟩

theorem start_congr (h : after.current = before.current) (path : String) :
    after.start path = before.start path := by
  rw [start, start, h]

theorem resolve_of_folders
    (hFolders : ∀ p, before.get? p = some .folder → after.get? p = some .folder)
    (hCurrent : after.current = before.current)
    (h : before.resolve path = .ok place) : after.resolve path = .ok place := by
  obtain ⟨here, hStart, hWalk⟩ := Result.bind_eq_ok_iff.1 h
  rw [← start_congr hCurrent] at hStart
  exact Result.bind_eq_ok_iff.2 ⟨here, hStart, walk_of_folders hFolders hWalk⟩

/-! ## Writing -/

/-- What is written is a file, at the place the path leads to. -/
theorem write_eq_ok {access : Access} {content : Bytes}
    (h : before.write access path content = .ok after) :
    ∃ place mode, before.resolve path = .ok place ∧ before.get? place ≠ some .folder ∧
      Path.endsWithSlash path = false ∧ after = before.put place (.file content mode) := by
  obtain ⟨place, hTarget, hPut⟩ := Result.bind_eq_ok_iff.1 h
  cases hPut
  rw [target] at hTarget
  split at hTarget
  · obtain ⟨_, -, hTarget⟩ := Result.bind_eq_ok_iff.1 hTarget
    obtain ⟨_, -, hTarget⟩ := Result.bind_eq_ok_iff.1 hTarget
    cases hTarget
  · next hSlash =>
    obtain ⟨_, hResolve, hTarget⟩ := Result.bind_eq_ok_iff.1 hTarget
    obtain ⟨hFile, hTarget⟩ := Result.refuse_eq_ok_iff.1 hTarget
    cases hTarget
    exact ⟨place, _, hResolve, hFile, by simpa using hSlash, rfl⟩

/-- There is a file where a path leads, and a path of a file has no slash at its end. -/
theorem find_of_file {content : Bytes} {mode : Nat} (hResolve : fs.resolve path = .ok place)
    (hFile : fs.get? place = some (.file content mode))
    (hSlash : Path.endsWithSlash path = false) : fs.find path = .ok (.file content mode) := by
  refine Result.bind_eq_ok_iff.2 ⟨place, hResolve, ?_⟩
  rw [hFile]
  dsimp only
  rw [hSlash]
  rfl

theorem pathExists_of_file {content : Bytes} {mode : Nat} (hResolve : fs.resolve path = .ok place)
    (hFile : fs.get? place = some (.file content mode))
    (hSlash : Path.endsWithSlash path = false) : fs.pathExists path = true := by
  rw [pathExists, find_of_file hResolve hFile hSlash]
  rfl

theorem pathExists_of_read {content : Bytes} (h : fs.read path = .ok content) :
    fs.pathExists path = true := by
  obtain ⟨e, hFind, -⟩ := Result.bind_eq_ok_iff.1 h
  rw [pathExists, hFind]
  rfl

/-- What was written at a path is read there. -/
theorem read_of_write {access : Access} {content : Bytes}
    (h : before.write access path content = .ok after) : after.read path = .ok content := by
  obtain ⟨place, mode, hResolve, hNew, hSlash, rfl⟩ := write_eq_ok h
  have hAfter : (before.put place (.file content mode)).resolve path = .ok place :=
    resolve_of_folders (fun _ => (get?_put_eq_folder_iff hNew).2) rfl hResolve
  have hFile : (before.put place (.file content mode)).get? place = some (.file content mode) :=
    get?_put_self (ne_nil_of_ne_folder hNew)
  exact Result.bind_eq_ok_iff.2 ⟨_, find_of_file hAfter hFile hSlash, rfl⟩

section Writes

variable {middle : FileSystem} {paths : List String}

/-- What writing files at some paths makes of a tree. -/
inductive Writes (paths : List String) : (before after : FileSystem) → Prop
  | nothing (fs : FileSystem) : Writes paths fs fs
  | more {before middle after : FileSystem} {access : Access} {path : String} {content : Bytes} :
      Writes paths before middle → path ∈ paths →
      middle.write access path content = .ok after → Writes paths before after

theorem Writes.trans (h : Writes paths before middle) (h' : Writes paths middle after) :
    Writes paths before after := by
  induction h' with
  | nothing => exact h
  | more _ hPath hWrite ih => exact .more ih hPath hWrite

theorem Writes.eq_of_nil (h : Writes [] before after) : after = before := by
  cases h with
  | nothing => rfl
  | more _ hPath _ => cases hPath

/-- Files make no path lead further than it did. -/
theorem Writes.current_and_folders (h : Writes paths before after) :
    after.current = before.current ∧
      ∀ p, after.get? p = some .folder → before.get? p = some .folder := by
  induction h with
  | nothing => exact ⟨rfl, fun _ hFolder => hFolder⟩
  | more _ _ hWrite ih =>
    obtain ⟨place, mode, -, hFile, -, rfl⟩ := write_eq_ok hWrite
    exact ⟨ih.1, fun p hFolder => ih.2 p ((get?_put_eq_folder_iff hFile).1 hFolder)⟩

/-- **A file that changes is one that a path led to before all writing.** -/
theorem Writes.get?_eq (h : Writes paths before after) (place : Location) :
    after.get? place = before.get? place ∨
      ∃ path ∈ paths, before.resolve path = .ok place ∧ Path.endsWithSlash path = false := by
  induction h with
  | nothing => exact .inl rfl
  | @more middle _ _ path _ hWrites hPath hWrite ih =>
    obtain ⟨written, mode, hResolve, -, hSlash, rfl⟩ := write_eq_ok hWrite
    by_cases hPlace : place = written
    · obtain ⟨hCurrent, hFolders⟩ := hWrites.current_and_folders
      rw [hPlace]
      exact .inr ⟨path, hPath, resolve_of_folders hFolders hCurrent.symm hResolve, hSlash⟩
    · rw [get?_put_of_ne hPlace]
      exact ih

end Writes

/-! ## Making folders -/

/-- Nothing is taken away or changed. -/
structure Grows (before after : FileSystem) : Prop where
  current_eq : after.current = before.current
  keeps : ∀ place e, before.get? place = some e → after.get? place = some e

theorem Grows.refl (fs : FileSystem) : Grows fs fs :=
  ⟨rfl, fun _ _ h => h⟩

theorem Grows.trans {middle : FileSystem} (h : Grows before middle) (h' : Grows middle after) :
    Grows before after :=
  ⟨h'.current_eq.trans h.current_eq, fun place e he => h'.keeps place e (h.keeps place e he)⟩

theorem grows_put (h : fs.get? place = none) (e : Entry) : Grows fs (fs.put place e) := by
  refine ⟨rfl, fun other f hf => ?_⟩
  have hOther : other ≠ place := by
    rintro rfl
    rw [h] at hf
    cases hf
  rwa [get?_put_of_ne hOther]

theorem grows_enterOrMake {now next : FileSystem × Location}
    (h : enterOrMake now name = .ok next) : Grows now.1 next.1 := by
  obtain ⟨place, -, h⟩ := Result.bind_eq_ok_iff.1 h
  split at h
  · next hNone =>
    cases h
    exact grows_put hNone .folder
  · cases h
    exact .refl _
  · cases h

theorem grows_makeAll {now last : FileSystem × Location}
    (h : names.foldlM enterOrMake now = .ok last) : Grows now.1 last.1 := by
  induction names generalizing now with
  | nil =>
    cases h
    exact .refl _
  | cons name names ih =>
    rw [List.foldlM_cons] at h
    obtain ⟨next, hNext, hRest⟩ := Result.bind_eq_ok_iff.1 h
    exact (grows_enterOrMake hNext).trans (ih hRest)

theorem grows_createFolders (h : before.createFolders path = .ok after) : Grows before after := by
  have hMade (h : (do pure (← (Path.names path).foldlM enterOrMake (before, ← before.start path)).1)
      = Except.ok after) : Grows before after := by
    obtain ⟨_, -, h⟩ := Result.bind_eq_ok_iff.1 h
    obtain ⟨_, hMade, h⟩ := Result.bind_eq_ok_iff.1 h
    cases h
    exact grows_makeAll hMade
  rw [createFolders] at h
  split at h
  · exact hMade h
  · exact hMade h
  · cases h

/-- A step that did not miss its folder is what it was. -/
theorem Grows.enter_eq (hGrows : Grows before after)
    (hMet : before.enter here name ≠ .error .notFound) :
    after.enter here name = before.enter here name := by
  cases hHere : before.get? here with
  | none =>
    refine absurd ?_ hMet
    rw [enter, hHere]
  | some e => exact enter_congr ((hGrows.keeps here e hHere).trans hHere.symm) name

theorem Grows.walk_eq (hGrows : Grows before after)
    (hMet : names.foldlM before.enter here ≠ .error .notFound) :
    names.foldlM after.enter here = names.foldlM before.enter here := by
  induction names generalizing here with
  | nil => rfl
  | cons name names ih =>
    rw [List.foldlM_cons] at hMet ⊢
    rw [List.foldlM_cons]
    have hEnter : before.enter here name ≠ .error .notFound := by
      intro hMissed
      rw [hMissed] at hMet
      exact hMet rfl
    rw [hGrows.enter_eq hEnter]
    cases hNext : before.enter here name with
    | error fault => rfl
    | ok next =>
      rw [hNext] at hMet
      exact ih hMet

/-- A path that did not meet a missing folder is what it was. -/
theorem Grows.resolve_eq (hGrows : Grows before after)
    (hMet : before.resolve path ≠ .error .notFound) :
    after.resolve path = before.resolve path := by
  rw [resolve] at hMet
  rw [resolve, resolve, start_congr hGrows.current_eq]
  cases hStart : before.start path with
  | error fault => rfl
  | ok here =>
    rw [hStart] at hMet
    exact hGrows.walk_eq hMet

/-! ## Whole trees -/

/-- Everything lies in folders. -/
def IsTree (fs : FileSystem) : Prop :=
  ∀ x ∈ fs.entries, fs.get? x.1.dropLast = some .folder

instance (fs : FileSystem) : Decidable fs.IsTree :=
  inferInstanceAs (Decidable (∀ x ∈ fs.entries, fs.get? x.1.dropLast = some .folder))

theorem IsTree.parent (hTree : fs.IsTree) (h : fs.get? place = some e) :
    fs.get? place.dropLast = some .folder := by
  rw [get?] at h
  split at h
  · next hRoot =>
    rw [hRoot]
    rfl
  · obtain ⟨_, _, hEntries, -⟩ := List.lookup_eq_some_iff.1 h
    exact hTree (place, e) (hEntries ▸ List.mem_append_right _ List.mem_cons_self)

/-- What a place lies in is a folder, level by level. -/
theorem IsTree.folder_of_prefix (hTree : fs.IsTree) (h : fs.get? place = some e)
    (hPrefix : here <+: place) (hNe : here ≠ place) : fs.get? here = some .folder := by
  obtain ⟨rest, rfl⟩ := hPrefix
  induction rest using List.reverseRecOn generalizing e with
  | nil => exact absurd (List.append_nil here).symm hNe
  | append_singleton rest name ih =>
    have hParent := hTree.parent h
    rw [← List.append_assoc, List.dropLast_concat] at hParent
    cases rest with
    | nil => rwa [List.append_nil] at hParent
    | cons next rest => exact ih hParent (by simp)

/-- A walk without `..` to a file that was there goes through folders that were there. -/
theorem Grows.walk_of_tree {content : Bytes} {mode : Nat} (hGrows : Grows before after)
    (hTree : before.IsTree) (hFile : before.get? place = some (.file content mode))
    (hNames : ".." ∉ names) (h : names.foldlM after.enter here = .ok place) :
    names.foldlM before.enter here = .ok place := by
  induction names generalizing here with
  | nil => exact h
  | cons name names ih =>
    have hPrefix := prefix_of_walk hNames h
    rw [List.foldlM_cons] at h ⊢
    obtain ⟨next, hEnter, hRest⟩ := Result.bind_eq_ok_iff.1 h
    rw [List.mem_cons, not_or] at hNames
    have hFolder := folder_of_enter hEnter
    have hNe : here ≠ place := by
      rintro rfl
      rw [hGrows.keeps here _ hFile] at hFolder
      cases hFolder
    rw [enter_congr (hFolder.trans (hTree.folder_of_prefix hFile hPrefix hNe).symm)] at hEnter
    exact Result.bind_eq_ok_iff.2 ⟨next, hEnter, ih hNames.2 hRest⟩

theorem Grows.resolve_of_tree {content : Bytes} {mode : Nat} (hGrows : Grows before after)
    (hTree : before.IsTree) (hFile : before.get? place = some (.file content mode))
    (hNames : ".." ∉ Path.names path) (h : after.resolve path = .ok place) :
    before.resolve path = .ok place := by
  obtain ⟨here, hStart, hWalk⟩ := Result.bind_eq_ok_iff.1 h
  rw [start_congr hGrows.current_eq] at hStart
  exact Result.bind_eq_ok_iff.2 ⟨here, hStart, hGrows.walk_of_tree hTree hFile hNames hWalk⟩

/-- **What a write may change after folders were made**: a file that its path led to, or one that it
leads to by way of `..` through a folder that was missing. -/
theorem Grows.write_eq_ok {middle : FileSystem} {access : Access} {content old : Bytes} {mode : Nat}
    (hGrows : Grows before middle) (hTree : before.IsTree)
    (hFile : before.get? place = some (.file old mode))
    (hWrite : middle.write access path content = .ok after) :
    after.get? place = some (.file old mode) ∨
      before.pathExists path = true ∧ before.resolve path = .ok place ∨
      before.resolve path = .error .notFound ∧ ".." ∈ Path.names path ∧
        after.resolve path = .ok place := by
  obtain ⟨written, newMode, hResolve, hNew, hSlash, rfl⟩ := FileSystem.write_eq_ok hWrite
  by_cases hPlace : place = written
  · subst hPlace
    have hFolders (p : Location) (hFolder : middle.get? p = some .folder) :
        (middle.put place (.file content newMode)).get? p = some .folder :=
      (get?_put_eq_folder_iff hNew).2 hFolder
    have hAfter : (middle.put place (.file content newMode)).resolve path = .ok place :=
      resolve_of_folders hFolders rfl hResolve
    by_cases hMissed : before.resolve path = .error .notFound
    · by_cases hNames : ".." ∈ Path.names path
      · exact .inr (.inr ⟨hMissed, hNames, hAfter⟩)
      · rw [hGrows.resolve_of_tree hTree hFile hNames hResolve] at hMissed
        cases hMissed
    · rw [hGrows.resolve_eq hMissed] at hResolve
      exact .inr (.inl ⟨pathExists_of_file hResolve hFile hSlash, hResolve⟩)
  · rw [get?_put_of_ne hPlace]
    exact .inl (hGrows.keeps place _ hFile)

end SshKeys.FileSystem
