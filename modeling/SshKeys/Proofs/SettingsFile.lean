import Mathlib.Data.List.Perm.Subperm
import SshKeys.Proofs.Bytes
import SshKeys.Proofs.JsonPrinted
import SshKeys.Proofs.Session

/-!
# Settings that are saved and loaded

Settings are an object of five fields, `Settings.fields`.  Reading an object sets the
fields that it holds one after the other, in any order; names that are no fields are passed
over, however often they come and whatever their values are.  `Settings.overlay base s names`
is what comes of it: `s` in the fields of these names, `base` in the others.

* `setField?_of_mem_fields`, `setField?_of_not_mem`: one member.
* `setMembers?_eq`, `ofJson?_record`: **the members of an object, in any order**.
* `load_of_read`: what loading makes of the text of a file.
* `settings_survive`: **what was saved is loaded**, and so is every object of some of the
  fields, however it is written.
-/

namespace SshKeys

/-! ## Choices -/

/-- Names that are told apart each stand for their own entry. -/
theorem byName?_name {α : Type} {name : α → String} {all : List α} {a : α} (ha : a ∈ all)
    (hName : ∀ b ∈ all, name b = name a → b = a) : byName? name all (name a) = some a := by
  induction all with
  | nil => cases ha
  | cons b all ih =>
    rw [List.forall_mem_cons] at hName
    by_cases hb : name b = name a
    · rw [byName?, List.find?_cons_of_pos (by simpa using hb), hName.1 hb]
    · have hMem : a ∈ all := by
        rcases List.mem_cons.1 ha with rfl | hMem
        · exact absurd rfl hb
        · exact hMem
      rw [byName?, List.find?_cons_of_neg (by simpa using hb)]
      exact ih hMem hName.2

namespace Settings

theorem choice?_text {α : Type} {name : α → String} {all : List α} {a : α} (ha : a ∈ all)
    (hName : ∀ b ∈ all, name b = name a → b = a) : choice? name all (.text (name a)) = some a :=
  byName?_name ha hName

theorem choice?_algorithm (a : KeyAlgorithm) :
    choice? KeyAlgorithm.name KeyAlgorithm.all (.text a.name) = some a := by
  cases a <;> exact choice?_text (by decide) (by decide)

theorem choice?_format (f : KeyFormat) :
    choice? KeyFormat.name KeyFormat.all (.text f.name) = some f := by
  cases f <;> exact choice?_text (by decide) (by decide)

theorem choice?_cipher (c : CipherKind) :
    choice? CipherKind.settingName CipherKind.all (.text c.settingName) = some c := by
  cases c <;> exact choice?_text (by decide) (by decide)

/-! ## Fields -/

/-- The fields of settings with their values, in order. -/
def fields (s : Settings) : List (String × JsonValue) :=
  [("default_algorithm", .text s.algorithm.name), ("rsa_bits", .nat s.rsaBits),
    ("default_format", .text s.format.name), ("default_cipher", .text s.cipher.settingName),
    ("default_comment", .text s.comment)]

theorem toJson_eq (s : Settings) : s.toJson = .record s.fields :=
  rfl

theorem map_fst_fields (s : Settings) : s.fields.map Prod.fst = fieldNames :=
  rfl

/-- `s` in the fields of these names, `base` in the others. -/
def overlay (base s : Settings) (names : List String) : Settings where
  algorithm := if "default_algorithm" ∈ names then s.algorithm else base.algorithm
  rsaBits := if "rsa_bits" ∈ names then s.rsaBits else base.rsaBits
  format := if "default_format" ∈ names then s.format else base.format
  cipher := if "default_cipher" ∈ names then s.cipher else base.cipher
  comment := if "default_comment" ∈ names then s.comment else base.comment

variable {base s : Settings} {name : String} {names others : List String} {v : JsonValue}

/-- Only the names of fields matter. -/
theorem overlay_congr (h : ∀ name ∈ fieldNames, name ∈ names ↔ name ∈ others) :
    overlay base s names = overlay base s others := by
  simp only [fieldNames, List.forall_mem_cons, List.not_mem_nil, false_implies, implies_true,
    and_true] at h
  obtain ⟨hAlgorithm, hBits, hFormat, hCipher, hComment⟩ := h
  simp only [overlay, hAlgorithm, hBits, hFormat, hCipher, hComment]

theorem overlay_nil : overlay base s [] = base := by
  simp only [overlay, List.not_mem_nil, if_false]

theorem overlay_fieldNames : overlay base s fieldNames = s := by
  rfl

/-- Fields that are set one after the other. -/
theorem overlay_cons :
    overlay (overlay base s [name]) s names = overlay base s (name :: names) := by
  have hField {α : Type} (field : String) (x y : α) :
      (if field ∈ names then x else if field ∈ [name] then x else y) =
        if field ∈ name :: names then x else y := by
    by_cases hNames : field ∈ names
    · rw [if_pos hNames, if_pos (List.mem_cons_of_mem _ hNames)]
    · simp only [hNames, if_false, List.mem_cons, List.not_mem_nil, or_false]
  simp only [overlay, hField]

theorem setField?_of_not_mem (h : name ∉ fieldNames) : base.setField? name v = some base := by
  simp only [fieldNames, List.mem_cons, not_or] at h
  rw [setField?]
  all_goals simp_all

/-- A field that was written is read as it was. -/
theorem setField?_of_mem_fields (hBits : s.rsaBits < UInt64.size) (h : (name, v) ∈ s.fields) :
    base.setField? name v = some (overlay base s [name]) := by
  have hText (t : String) : (JsonValue.text t).text? = some t := rfl
  rw [fields] at h
  fin_cases h
  · simp [setField?, overlay, choice?_algorithm]
  · simp [setField?, overlay, JsonValue.nat64?_nat hBits]
  · simp [setField?, overlay, choice?_format]
  · simp [setField?, overlay, choice?_cipher]
  · simp [setField?, overlay, hText]

/-! ## Objects -/

variable {members extras : List (String × JsonValue)} {seen chosen : List String}

/-- One member: a name that may still come is set, and may not come again if it is a field. -/
theorem setMembers?_cons {next : Settings} {rest : List (Option String × JsonValue)}
    (hNew : name ∉ seen) (hSet : base.setField? name v = some next) :
    setMembers? base seen ((some name, v) :: rest) =
      setMembers? next (if name ∈ fieldNames then name :: seen else seen) rest := by
  have hGuard : (guard (!seen.contains name) : Option Unit) = some () := by simp [hNew]
  simp only [setMembers?, hGuard, hSet, Option.bind_eq_bind, Option.bind_some,
    List.contains_iff_mem]

/-- Members that are fields of `s` or none of ours are set in turn, as long as no field comes
twice. -/
theorem setMembers?_eq (hBits : s.rsaBits < UInt64.size)
    (hSeen : ∀ name ∈ seen, name ∈ fieldNames)
    (hMembers : ∀ f ∈ members, f ∈ s.fields ∨ f.1 ∉ fieldNames)
    (hOnce : ((members.map Prod.fst).filter (· ∈ fieldNames) ++ seen).Nodup) :
    setMembers? base seen (members.map fun f => (some f.1, f.2)) =
      some (overlay base s (members.map Prod.fst)) := by
  induction members generalizing base seen with
  | nil => rw [List.map_nil, List.map_nil, setMembers?, overlay_nil]
  | cons f members ih =>
    obtain ⟨name, v⟩ := f
    obtain ⟨hFirst, hRest⟩ := List.forall_mem_cons.1 hMembers
    rw [List.map_cons] at hOnce ⊢
    rw [List.map_cons]
    by_cases hKnown : name ∈ fieldNames
    · have hField : (name, v) ∈ s.fields := hFirst.resolve_right fun h => h hKnown
      rw [List.filter_cons_of_pos (by simpa using hKnown), List.cons_append] at hOnce
      have hNew : name ∉ seen := fun h =>
        (List.nodup_cons.1 hOnce).1 (List.mem_append_right _ h)
      rw [setMembers?_cons hNew (setField?_of_mem_fields hBits hField), if_pos hKnown,
        ih (List.forall_mem_cons.2 ⟨hKnown, hSeen⟩) hRest (List.nodup_middle.2 hOnce), overlay_cons]
    · rw [List.filter_cons_of_neg (by simpa using hKnown)] at hOnce
      have hSame : overlay base s (members.map Prod.fst) =
          overlay base s (name :: members.map Prod.fst) := by
        refine overlay_congr fun other hOther => ?_
        rw [List.mem_cons, or_iff_right]
        rintro rfl
        exact hKnown hOther
      rw [setMembers?_cons (fun h => hKnown (hSeen name h)) (setField?_of_not_mem hKnown),
        if_neg hKnown, ih hSeen hRest hOnce, hSame]

/-- An object that holds some of the fields, and others that are not ours, in any order. -/
theorem ofJson?_record (hBits : s.rsaBits < UInt64.size) (hExtras : ∀ f ∈ extras, f.1 ∉ fieldNames)
    (hMembers : members.Perm (s.fields.filter (·.1 ∈ chosen) ++ extras)) :
    ofJson? (.record members) = some (overlay { } s chosen) := by
  have hNames : (s.fields.filter (·.1 ∈ chosen)).map Prod.fst = fieldNames.filter (· ∈ chosen) := by
    rw [← map_fst_fields s, List.filter_map]
    rfl
  have hNone : (extras.map Prod.fst).filter (· ∈ fieldNames) = [] := by
    rw [List.filter_eq_nil_iff]
    intro name hName
    obtain ⟨f, hf, rfl⟩ := List.mem_map.1 hName
    simpa using hExtras f hf
  have hPerm := hMembers.map Prod.fst
  rw [List.map_append, hNames] at hPerm
  have hOnce : ((members.map Prod.fst).filter (· ∈ fieldNames) ++ []).Nodup := by
    rw [List.append_nil, (hPerm.filter _).nodup_iff, List.filter_append, hNone, List.append_nil]
    exact ((by decide : fieldNames.Nodup).filter _).filter _
  have hEach (f : String × JsonValue) (hf : f ∈ members) : f ∈ s.fields ∨ f.1 ∉ fieldNames := by
    rcases List.mem_append.1 (hMembers.mem_iff.1 hf) with hField | hExtra
    · exact .inl (List.mem_filter.1 hField).1
    · exact .inr (hExtras f hExtra)
  have hChosen : overlay { } s (members.map Prod.fst) = overlay { } s chosen := by
    refine overlay_congr fun name hName => ?_
    rw [hPerm.mem_iff, List.mem_append, List.mem_filter, or_iff_left]
    · simp [hName]
    · intro hExtra
      obtain ⟨f, hf, rfl⟩ := List.mem_map.1 hExtra
      exact hExtras f hf hName
  exact (setMembers?_eq hBits (List.forall_mem_nil _) hEach hOnce).trans (congrArg some hChosen)

/-! ## Texts -/

theorem sound_toJson (s : Settings) : s.toJson.Sound := by
  rw [toJson]
  simp only [JsonValue.record, JsonValue.text, JsonValue.nat, List.map_cons, List.map_nil,
    JsonValue.Sound, JsonValue.AllMembersSound, Option.isSome_some, true_and, and_true]
  exact JsonValue.isNumeral_toString s.rsaBits

/-- The text of settings is one of the texts of their fields. -/
theorem written_toText (s : Settings) :
    JsonValue.Written (.record s.fields) s.toText.toList := by
  rw [← toJson_eq, toText]
  refine JsonValue.written_print_append (sound_toJson s) fun c hc => ?_
  rw [List.mem_singleton.1 hc]
  rfl

theorem ofText_of_written {text : String} (hBits : s.rsaBits < UInt64.size)
    (hExtras : ∀ f ∈ extras, f.1 ∉ fieldNames)
    (hMembers : members.Perm (s.fields.filter (·.1 ∈ chosen) ++ extras))
    (h : JsonValue.Written (.record members) text.toList) :
    ofText text = .ok (overlay { } s chosen) := by
  rw [ofText, JsonValue.parse?_of_written h, Option.bind_eq_bind, Option.bind_some,
    ofJson?_record hBits hExtras hMembers]

theorem ofText_toText (hBits : s.rsaBits < UInt64.size) : ofText s.toText = .ok s := by
  have hAll : s.fields.Perm (s.fields.filter (·.1 ∈ fieldNames) ++ []) := by
    rw [List.append_nil, List.filter_eq_self.2]
    intro f hf
    have hName : f.1 ∈ s.fields.map Prod.fst := List.mem_map_of_mem hf
    rw [map_fst_fields] at hName
    simpa using hName
  rw [ofText_of_written hBits (List.forall_mem_nil _) hAll (written_toText s), overlay_fieldNames]

/-! ## Files -/

section Sessions

variable {st : Session} {path : String}

/-- A file of settings is loaded, and nothing is different afterwards. -/
theorem load_of_read {text : String} (hRead : st.files.read path = .ok (Bytes.ofString text)) :
    (Settings.load path : SessionM Settings) st = (ofText text, st) := by
  have hExists : (Console.pathExists path : SessionM Bool) st = (.ok true, st) :=
    congrArg (fun b => (Except.ok b, st)) (FileSystem.pathExists_of_read hRead)
  have hBytes : (Console.readFile path : SessionM Bytes) st = (.ok (Bytes.ofString text), st) := by
    refine (Session.files?_eq (·.read path) st).trans ?_
    rw [hRead]
  rw [Settings.load, ExceptState.bind_of_ok hExists, if_pos rfl, ExceptState.bind_of_ok hBytes,
    textOf, Bytes.toString?_ofString]
  change (MonadExcept.ofExcept (ofText text) : SessionM Settings) st = _
  cases ofText text <;> rfl

end Sessions

/-- **Settings survive being saved and loaded.**  Saving fails only where the folder or the file
cannot be made; otherwise loading gives back the settings, which leaves the session as it is.
And of an object that holds some of the fields, in any order, among others that are not ours,
every text in the grammar is read as the settings in these fields and the defaults in the rest.
The size of a key is a number of 64 bits. -/
theorem settings_survive (s : Settings) (hBits : s.rsaBits < UInt64.size) :
    (∀ (path : String) (st : Session),
      match writeInFolder st.files path (Bytes.ofString s.toText) with
      | .error fault => ((s.save path : SessionM Unit) st).1 = .error (.io fault)
      | .ok fs =>
        (s.save path : SessionM Unit) st = (.ok (), { st with files := fs }) ∧
        (Settings.load path : SessionM Settings) { st with files := fs } =
          (.ok s, { st with files := fs })) ∧
    ∀ (chosen : List String) (extras members : List (String × JsonValue)) (text : String),
      (∀ f ∈ extras, f.1 ∉ fieldNames) →
      members.Perm (s.fields.filter (·.1 ∈ chosen) ++ extras) →
      JsonValue.Written (.record members) text.toList →
      ofText text = .ok (overlay { } s chosen) ∧
      ∀ (path : String) (st : Session), st.files.read path = .ok (Bytes.ofString text) →
        (Settings.load path : SessionM Settings) st = (.ok (overlay { } s chosen), st) := by
  refine ⟨fun path st => ?_, fun chosen extras members text hExtras hMembers hWritten => ?_⟩
  · have hSave := save_outcome s path st
    cases hFiles : writeInFolder st.files path (Bytes.ofString s.toText) with
    | error fault => rwa [hFiles] at hSave
    | ok fs =>
      rw [hFiles] at hSave
      refine ⟨hSave, ?_⟩
      rw [load_of_read (read_of_writeInFolder hFiles), ofText_toText hBits]
  · have hText := ofText_of_written hBits hExtras hMembers hWritten
    refine ⟨hText, fun path st hRead => ?_⟩
    rw [load_of_read hRead, hText]

/-- A comment outside the basic plane, saved where there were no files, and spelled as a pair of
codes next to a field that is not ours. -/
theorem settings_survive_pair :
    let s : Settings := { rsaBits := 4096, comment := "\"😀" }
    let text := "\x7b \"x\": [null], \"default_comment\":\"\\\"\\ud83d\\ude00\"\x7d"
    s.rsaBits < UInt64.size ∧
      (∃ t : Session, (s.save "config.json" : SessionM Unit) { } = (.ok (), t) ∧
        (Settings.load "config.json" : SessionM Settings) t = (.ok s, t)) ∧
      ofText text = .ok { comment := "\"😀" } := by
  intro s text
  have hBits : s.rsaBits < UInt64.size := by decide
  obtain ⟨hSaved, hLoaded⟩ := settings_survive s hBits
  refine ⟨hBits, ?_, ?_⟩
  · have hFiles (content : Bytes) : writeInFolder { } "config.json" content =
        .ok { entries := [(["config.json"], .file content 0o600)] } := rfl
    have hRun := hSaved "config.json" { }
    rw [hFiles] at hRun
    exact ⟨_, hRun⟩
  · refine (hLoaded ["default_comment"] [("x", .array [.null])]
      [("x", .array [.null]), ("default_comment", .text s.comment)] text ?_ ?_ ?_).1
    · decide
    · exact .swap _ _ []
    · have hHex (c : Char) (n : Nat) (hn : n < 16) (hc : c = Bytes.hexDigit n) :
          JsonValue.IsHex c n := ⟨hn, .inl hc⟩
      have hHigh : JsonValue.IsCode ['d', '8', '3', 'd'] 0xd83d :=
        ⟨_, _, _, _, 13, 8, 3, 13, rfl, hHex _ _ (by decide) rfl, hHex _ _ (by decide) rfl,
          hHex _ _ (by decide) rfl, hHex _ _ (by decide) rfl, rfl⟩
      have hLow : JsonValue.IsCode ['d', 'e', '0', '0'] 0xde00 :=
        ⟨_, _, _, _, 13, 14, 0, 0, rfl, hHex _ _ (by decide) rfl, hHex _ _ (by decide) rfl,
          hHex _ _ (by decide) rfl, hHex _ _ (by decide) rfl, rfl⟩
      have hComment : JsonValue.Bare (.text s.comment) "\"\\\"\\ud83d\\ude00\"".toList :=
        .string (.letter (by decide) (.pair hHigh (by decide) hLow (by decide) .nil))
      have hNulls : JsonValue.Bare (.array [.null]) "[null]".toList :=
        .array (.last (.mk JsonValue.blanks_nil .nullWord JsonValue.blanks_nil))
      have hMembers := JsonValue.WrittenMembers.more JsonValue.blanks_space
        (JsonValue.spells_flatMap "x".toList) JsonValue.blanks_nil
        (.mk JsonValue.blanks_space hNulls JsonValue.blanks_nil)
        (.last JsonValue.blanks_space (JsonValue.spells_flatMap "default_comment".toList)
          JsonValue.blanks_nil (.mk JsonValue.blanks_nil hComment JsonValue.blanks_nil))
      have hWritten :=
        JsonValue.Written.mk JsonValue.blanks_nil (.object hMembers) JsonValue.blanks_nil
      convert hWritten using 1
      · rfl
      · decide +kernel

end Settings

end SshKeys
