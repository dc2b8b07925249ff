import SshKeys.Proofs.Imported
import SshKeys.Proofs.Line

/-!
# The line of a report

`Reported comment i`: some operation reports `i`, with `comment` for its line.
The comment goes into the line as it is, so the line is one line only if the
comment has no line breaks, and it is read back only if there is no marker of a
private key in it.

`Reported.line_iff`: **the line of a report has the line breaks of its comment, and
is imported as the same key exactly if it is taken for a public key and the key is
no longer than a field**.  `not_one_line` gives a comment that breaks the line and
one that makes the line unreadable.
-/

namespace SshKeys

open Text (isBlank)
open KeyReader (maxLength)

/-! ## What is exported -/

theorem PrivateKey.info_of_exportWith {k : PrivateKey} {o : ExportOptions} {x : ExportedKey}
    {source rest : Bytes} (h : k.exportWith o source = .ok (x, rest)) :
    k.publicKey.info (o.comment.getD k.comment) = .ok x.info := by
  obtain ⟨⟨text, cipher⟩, t, -, hReport⟩ := StateExcept.bind_eq_ok_iff.1 h
  obtain ⟨i, u, hLift, hPure⟩ := StateExcept.bind_eq_ok_iff.1 hReport
  cases hPure
  exact (StateExcept.lift_eq_ok_iff.1 hLift).1

/-- A new key has no comment of its own. -/
theorem exists_info_of_generate {algorithm : KeyAlgorithm} {rsaBits : Nat} {o : ExportOptions}
    {x : ExportedKey} {source rest : Bytes}
    (h : generate algorithm rsaBits o source = .ok (x, rest)) :
    ∃ key : PublicKey, key.Valid ∧ key.info (o.comment.getD "") = .ok x.info := by
  obtain ⟨_, t, -, hSteps⟩ := StateExcept.bind_eq_ok_iff.1 h
  obtain ⟨k, left, hKey, hExport⟩ := StateExcept.bind_eq_ok_iff.1 hSteps
  obtain ⟨-, hPair, hComment⟩ := PrivateKey.gives_generate algorithm rsaBits _ _ _ hKey
  have hInfo := PrivateKey.info_of_exportWith hExport
  rw [hComment] at hInfo
  exact ⟨k.publicKey, hPair.publicKey, hInfo⟩

/-! ## What is reported -/

/-- A report of a public key, and the comment for its line: the one that was given, or else the
one of the key. -/
inductive Reported : String → PublicKeyInfo → Prop
  | generated {algorithm : KeyAlgorithm} {rsaBits : Nat} {o : ExportOptions} {x : ExportedKey}
    {source rest : Bytes} (h : generate algorithm rsaBits o source = .ok (x, rest)) :
    Reported (o.comment.getD "") x.info
  | converted {text : String} {passphrase : Option String} {o : ExportOptions} {x : ExportedKey}
    {k : PrivateKey} {source rest : Bytes} (hLoad : PrivateKey.load text passphrase = .ok k)
    (h : convert text passphrase o source = .ok (x, rest)) :
    Reported (o.comment.getD k.comment) x.info
  | importedLine {text : String} {passphrase comment : Option String} {key : PublicKey}
    {own : Option String} {r : ImportReport}
    (hLine : PublicKey.ofLine (Text.trim text) = .ok (key, own))
    (hPublic : r.isPrivate = false) (h : importKey text passphrase comment = .ok r) :
    Reported (((givenComment comment).or own).getD "") r.info
  | importedKey {text : String} {passphrase comment : Option String} {k : PrivateKey}
    {r : ImportReport} (hLoad : PrivateKey.load text passphrase = .ok k)
    (hPrivate : r.isPrivate = true) (h : importKey text passphrase comment = .ok r) :
    Reported ((givenComment comment).getD k.comment) r.info

/-- A report is of a key that was read, generated or made from numbers. -/
theorem Reported.exists_info {comment : String} {i : PublicKeyInfo} (h : Reported comment i) :
    ∃ key : PublicKey, key.Sized ∧ key.info comment = .ok i := by
  cases h with
  | generated h =>
    obtain ⟨key, hValid, hInfo⟩ := exists_info_of_generate h
    exact ⟨key, .inl hValid, hInfo⟩
  | converted hLoad h =>
    obtain ⟨-, k', hOwn, hExport⟩ := exists_exportWith_of_convert h
    rw [hLoad] at hOwn
    cases hOwn
    exact ⟨_, PrivateKey.sized_of_load hLoad, PrivateKey.info_of_exportWith hExport⟩
  | importedLine hLine hPublic h =>
    cases importKey_eq_ok_iff.1 h with
    | line _ hOwn hInfo =>
      rw [hLine] at hOwn
      cases hOwn
      obtain ⟨_, _, _, _, _, -, -, -, hBlob, -⟩ := PublicKey.ofLine_eq_ok_iff.1 hLine
      exact ⟨_, .inl (PublicKey.valid_of_ofBlob hBlob), hInfo⟩
    | key _ _ _ _ _ => cases hPublic
  | importedKey hLoad hPrivate h =>
    cases importKey_eq_ok_iff.1 h with
    | line _ _ _ => cases hPrivate
    | key _ _ _ hOwn hInfo =>
      rw [hLoad] at hOwn
      cases hOwn
      exact ⟨_, PrivateKey.sized_of_load hLoad, hInfo⟩

/-! ## Reading the line back -/

/-- The line of the report is imported as a public key that is described in the same way. -/
def PublicKeyInfo.IsImported (i : PublicKeyInfo) : Prop :=
  ∃ r, importKey i.line none none = .ok r ∧ r.isPrivate = false ∧ r.info.keyType = i.keyType ∧
    r.info.bitLength = i.bitLength ∧ r.info.fingerprints = i.fingerprints

/-- The line of the report is free of the markers of private keys. -/
def PublicKeyInfo.IsUnmarked (i : PublicKeyInfo) : Prop :=
  Text.contains i.line "PRIVATE KEY-----" = false ∧ Text.contains i.line containerMarker = false

namespace PublicKey

variable {k : PublicKey} {comment : String} {i : PublicKeyInfo}

theorem line_of_info (h : k.info comment = .ok i) : i.line = k.line comment := by
  obtain ⟨t, -, h⟩ := Result.bind_eq_ok_iff.1 h
  obtain ⟨n, -, h⟩ := Result.bind_eq_ok_iff.1 h
  cases h
  dsimp only

/-- A line without markers is imported, if its key can be read at all. -/
theorem isImported_of_valid (hValid : k.Valid) (hInfo : k.info comment = .ok i)
    (hUnmarked : i.IsUnmarked) : i.IsImported := by
  have hLine := line_of_info hInfo
  have hDescribes := describes_of_info hInfo
  have hType := hDescribes.keyType
  rw [PublicKeyInfo.IsUnmarked, hLine] at hUnmarked
  have hKind := (kind_line_iff hType).2 hUnmarked
  have hRead := ofLine_line hValid hType comment
  rw [← trim_line hType comment] at hRead
  generalize joined (Text.words (Text.trim comment)) = own at hRead
  obtain ⟨j, hOwn, hSame⟩ := hDescribes.exists_info (own.getD "")
  rw [PublicKeyInfo.IsImported, hLine]
  exact ⟨_, importKey_eq_ok_iff.2 (.line hKind hRead hOwn), rfl, hSame⟩

/-- What is imported as a line has no markers, and is no longer than a field. -/
theorem unmarked_of_isImported (hInfo : k.info comment = .ok i) (h : i.IsImported) :
    i.IsUnmarked ∧ i.bitLength < 8 * maxLength := by
  have hLine := line_of_info hInfo
  have hType := (describes_of_info hInfo).keyType
  obtain ⟨r, hImport, hPublic, -, hBits, -⟩ := h
  cases importKey_eq_ok_iff.1 hImport with
  | line hKind hRead hOwn =>
    obtain ⟨_, _, _, _, _, -, -, -, hBlob, -⟩ := ofLine_eq_ok_iff.1 hRead
    rw [PublicKeyInfo.IsUnmarked, hLine]
    rw [hLine] at hKind
    refine ⟨(kind_line_iff hType).1 hKind, ?_⟩
    rw [← hBits]
    exact (valid_of_ofBlob hBlob).bitLength_lt (describes_of_info hOwn).bitLength
  | key _ _ _ _ _ => cases hPublic

end PublicKey

/-- **The line of a report**: its line breaks, and when it is read back. -/
theorem Reported.line_iff {comment : String} {i : PublicKeyInfo} (h : Reported comment i) :
    (∀ c, isBlank c = true → c ≠ ' ' →
      (c ∈ i.line.toList ↔ c ∈ (Text.trim comment).toList)) ∧
    (i.IsImported ↔ i.IsUnmarked ∧ i.bitLength < 8 * maxLength) := by
  obtain ⟨key, hSized, hInfo⟩ := h.exists_info
  have hDescribes := PublicKey.describes_of_info hInfo
  refine ⟨fun c hBlank hc => ?_, ?_, ?_⟩
  · rw [PublicKey.line_of_info hInfo]
    exact PublicKey.mem_line_iff hDescribes.keyType hBlank hc
  · exact PublicKey.unmarked_of_isImported hInfo
  · rintro ⟨hUnmarked, hShort⟩
    have hValid := (hSized.valid_iff hDescribes.bitLength).2 hShort
    exact PublicKey.isImported_of_valid hValid hInfo hUnmarked

/-! ## Comments that were given -/

/-- The Ed25519 key of zeros. -/
def zeroKey : PublicKey :=
  .ed25519 (Bytes.zeros 32)

def zeroInfo (comment : String) : PublicKeyInfo :=
  ⟨.ed25519, 256, zeroKey.line comment, zeroKey.fingerprints⟩

theorem info_zeroKey (comment : String) : zeroKey.info comment = .ok (zeroInfo comment) := rfl

/-- The line of that key is imported with a comment of one's own. -/
theorem importKey_zeroKey {comment : String} (hGiven : Text.trim comment ≠ "") :
    importKey (zeroKey.line "") none (some comment) =
        .ok ⟨false, false, none, .none, zeroInfo comment, none⟩ ∧
      Reported comment (zeroInfo comment) := by
  have hValid : zeroKey.Valid := List.length_replicate
  have hType : zeroKey.keyType = .ok .ed25519 := rfl
  have hKind : TextKind.ofText (zeroKey.line "") = .publicKey := by
    decide +kernel
  have hNone : PublicKey.joined (Text.words (Text.trim "")) = none := by
    decide +kernel
  have hLine : PublicKey.ofLine (Text.trim (zeroKey.line "")) = .ok (zeroKey, none) := by
    rw [PublicKey.trim_line hType, PublicKey.ofLine_line hValid hType, hNone]
  have hComment : ((givenComment (some comment)).or none).getD "" = comment := by
    rw [givenComment, Option.filter_some, if_pos (decide_eq_true hGiven)]
    rfl
  have hInfo : zeroKey.info (((givenComment (some comment)).or none).getD "") =
      .ok (zeroInfo comment) := by
    rw [hComment, info_zeroKey]
  have hImport : importKey (zeroKey.line "") none (some comment) =
      .ok ⟨false, false, none, .none, zeroInfo comment, none⟩ :=
    importKey_eq_ok_iff.2 (.line hKind hLine hInfo)
  have hReported := Reported.importedLine hLine rfl hImport
  rw [hComment] at hReported
  exact ⟨hImport, hReported⟩

/-- With a short comment it is reported as one line that is read back. -/
theorem Reported.line_iff_zeroKey : ∃ r, importKey (zeroKey.line "") none (some "a") = .ok r ∧
    '\n' ∉ r.info.line.toList ∧ r.info.IsImported := by
  obtain ⟨hImport, hReported⟩ : _ ∧ Reported "a" (zeroInfo "a") := importKey_zeroKey (by decide)
  obtain ⟨hBreaks, hImported⟩ := Reported.line_iff hReported
  refine ⟨_, hImport, ?_, hImported.2 ⟨⟨?_, ?_⟩, ?_⟩⟩
  · rw [hBreaks _ (by decide) (by decide)]
    decide
  · decide +kernel
  · decide +kernel
  · decide

/-- A comment with a line feed makes two lines, and one with a marker makes a line that is not
read back. -/
theorem not_one_line :
    (∃ r, importKey (zeroKey.line "") none (some "a\nb") = .ok r ∧ '\n' ∈ r.info.line.toList) ∧
    ∃ r, importKey (zeroKey.line "") none (some "PRIVATE KEY-----") = .ok r ∧
      ¬r.info.IsImported := by
  refine ⟨⟨_, (importKey_zeroKey (by decide)).1, ?_⟩, _, (importKey_zeroKey (by decide)).1, ?_⟩
  · have hType : zeroKey.keyType = .ok .ed25519 := rfl
    have hFeed : '\n' ∈ (zeroKey.line "a\nb").toList := by
      rw [PublicKey.mem_line_iff hType (by decide) (by decide)]
      decide
    exact hFeed
  · intro hImported
    have hMarked : Text.contains (zeroKey.line "PRIVATE KEY-----") "PRIVATE KEY-----" = true := by
      decide +kernel
    have hUnmarked : (zeroInfo "PRIVATE KEY-----").IsUnmarked :=
      (PublicKey.unmarked_of_isImported (info_zeroKey _) hImported).1
    rw [PublicKeyInfo.IsUnmarked, zeroInfo, hMarked] at hUnmarked
    exact Bool.noConfusion hUnmarked.1

end SshKeys
