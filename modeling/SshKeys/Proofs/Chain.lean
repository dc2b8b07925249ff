import SshKeys.Proofs.Export

/-!
# Chains of conversions

A key is written out under options, the text is loaded with the passphrase of
those options and written out anew, and so on.  `exists_exportWith` follows one
step: what is loaded from its text is the key `PrivateKey.after` names.  As a
text counts only for the key it holds (`convertAll_eq_exportAll`),
`exists_follows` goes through all steps by induction on the list of options, and
`exists_exportAll` says what that leaves at the end: **the key, and the comment
`finalComment`**.  `not_load_of_long` shows the two limits of it.
-/

namespace SshKeys

/-! ## What a step does to a key -/

namespace ExportOptions

/-- How many random bytes writing a key draws: a salt and a check number if it is encrypted. -/
def drawn (o : ExportOptions) : Nat :=
  if o.activePassphrase.isSome then KdfParameters.saltLength + 4 else 0

/-- The cipher of the private section. -/
def cipherUsed (o : ExportOptions) : CipherKind :=
  if o.activePassphrase.isSome then o.cipher.forEncryption else .none

theorem activePassphrase_eq_some {o : ExportOptions} {s : String}
    (h : o.activePassphrase = some s) : o.passphrase = some s ∧ s ≠ "" := by
  obtain ⟨hSome, hNe⟩ := Option.filter_eq_some_iff.1 h
  exact ⟨hSome, of_decide_eq_true hNe⟩

theorem activePassphrase_eq_none {o : ExportOptions} (hValid : o.validate = .ok ())
    (hFormat : o.format ≠ .openssh) : o.activePassphrase = none := by
  rw [validate] at hValid
  split at hValid
  · cases hValid
  · next hNot =>
    cases hSecret : o.activePassphrase with
    | none => rfl
    | some s => exact absurd ⟨by rw [hSecret]; rfl, hFormat⟩ hNot

theorem drawn_of_none {o : ExportOptions} (h : o.activePassphrase = none) : o.drawn = 0 := by
  rw [drawn, h]
  rfl

end ExportOptions

theorem CipherKind.forEncryption_forEncryption (k : CipherKind) :
    k.forEncryption.forEncryption = k.forEncryption := by
  cases k <;> rfl

namespace PrivateKey

/-- The key that is loaded from what a key is written out as.  A PEM file has no comment. -/
def after (k : PrivateKey) (o : ExportOptions) : PrivateKey :=
  if o.format = .openssh then ⟨k.pair, o.comment.getD k.comment, none⟩
  else ⟨k.pair.recomputed, "", none⟩

/-- If a container is written, the length of its private section can be declared. -/
def SectionFits (k : PrivateKey) (o : ExportOptions) : Prop :=
  o.format = .openssh →
    Section.length k.pair.blob.length (o.comment.getD k.comment).utf8ByteSize
      o.cipherUsed.profile.blockSize < 2 ^ 32

theorem after_consistent {k : PrivateKey} (h : k.pair.Consistent) (hFits : k.pair.Fits)
    (o : ExportOptions) : (k.after o).pair.Consistent ∧ (k.after o).pair.Fits := by
  obtain ⟨hConsistent, hStays, -⟩ := h.recomputed_spec
  rw [after]
  split
  · exact ⟨h, hFits⟩
  · exact ⟨hConsistent, hStays hFits⟩

theorem publicKey_after (k : PrivateKey) (o : ExportOptions) :
    (k.after o).publicKey = k.publicKey := by
  rw [after]
  split
  · rfl
  · exact k.pair.publicKey_recomputed

/-! ## One step -/

/-- The header of a container in the clear. -/
def clearHeader (k : PrivateKey) : ContainerHeader where
  cipherName := CipherKind.none.name
  kdfName := KdfParameters.noneName
  kdf := none
  publicBlob := k.publicKey.blob
  privateSection := Section.build (k.check.getD k.pair.checkNumber) k.pair.blob k.comment
    CipherKind.none.profile.blockSize
  tag := []

theorem parse_toContainer {k : PrivateKey} (h : Container.Declarable k.pair.blob k.publicKey.blob
    k.comment CipherKind.none.profile.blockSize) :
    ContainerHeader.parse k.toContainer = .ok k.clearHeader := by
  have hNe : CipherKind.none.name ≠ "" := by decide
  have hLt : CipherKind.none.name.utf8ByteSize < 2 ^ 32 := by decide
  have hSection := h.section_lt
  rw [← Section.length_build (k.check.getD k.pair.checkNumber)] at hSection
  exact ContainerHeader.parse_wrap (h := k.clearHeader)
    ⟨hNe, hLt, .inl ⟨rfl, rfl⟩, h.publicBlob_lt, hSection⟩

/-- A container in the clear opens without regard to the passphrase. -/
theorem decode_toContainer {k : PrivateKey} (hPair : k.pair.Valid)
    (hSection : Section.length k.pair.blob.length k.comment.utf8ByteSize
      CipherKind.none.profile.blockSize < 2 ^ 32) (passphrase : Option String) :
    Container.decode k.toContainer passphrase =
      .ok ⟨.none, k.pair, k.comment, k.pair.publicKey.blob⟩ := by
  have hComment : k.comment.utf8ByteSize < 2 ^ 32 := by
    simp only [Section.length, Field.stringLength] at hSection
    omega
  have hParse := parse_toContainer (k := k) ⟨hPair.publicKey.length_blob_lt, hSection⟩
  exact Container.decode_of_parse (k := .none) hParse rfl rfl rfl rfl hPair hComment

theorem checkContainer_eq_ok_iff {k : PrivateKey} :
    k.checkContainer = .ok () ↔ Container.Declarable k.pair.blob k.publicKey.blob k.comment
      CipherKind.none.profile.blockSize := by
  rw [checkContainer]
  split
  · next hLong =>
    constructor
    · intro hEq
      cases hEq
    · rintro ⟨hBlob, hSection⟩
      omega
  · next hShort =>
    constructor
    · intro _
      exact ⟨by omega, by omega⟩
    · intro _
      rfl

/-- Without a passphrase, a container is written in the clear and nothing is drawn. -/
theorem write_clear_eq_ok_iff {k : PrivateKey} {o : ExportOptions} {x : String × CipherKind}
    {source rest : Bytes} (hFormat : o.format = .openssh) (hSecret : o.activePassphrase = none) :
    k.write o source = .ok (x, rest) ↔ Container.Declarable k.pair.blob k.publicKey.blob k.comment
      CipherKind.none.profile.blockSize ∧ x = (k.toContainer, .none) ∧ rest = source := by
  simp only [write, hFormat, hSecret]
  rw [StateExcept.bind_eq_ok_iff]
  constructor
  · rintro ⟨⟨⟩, t, hLift, hPure⟩
    obtain ⟨hCheck, hSame⟩ := StateExcept.lift_eq_ok_iff.1 hLift
    cases hPure
    exact ⟨checkContainer_eq_ok_iff.1 hCheck, rfl, hSame⟩
  · rintro ⟨hLengths, rfl, rfl⟩
    exact ⟨(), rest, StateExcept.lift_eq_ok_iff.2 ⟨checkContainer_eq_ok_iff.2 hLengths, rfl⟩, rfl⟩

/-- A container, in the clear or sealed, keeps the key and its comment. -/
theorem exists_write_container {k : PrivateKey} {o : ExportOptions} {source : Bytes}
    (hConsistent : k.pair.Consistent) (hFits : k.pair.Fits) (hFormat : o.format = .openssh)
    (hSection : Section.length k.pair.blob.length k.comment.utf8ByteSize
      o.cipherUsed.profile.blockSize < 2 ^ 32) (hSource : o.drawn ≤ source.length) :
    ∃ text cipher, k.write o source = .ok ((text, cipher), source.drop o.drawn) ∧
      load text o.passphrase = .ok ⟨k.pair, k.comment, none⟩ := by
  have hPair := hConsistent.valid hFits
  cases hSecret : o.activePassphrase with
  | none =>
    have hCipher : o.cipherUsed = .none := by rw [ExportOptions.cipherUsed, hSecret]; rfl
    rw [hCipher] at hSection
    refine ⟨k.toContainer, .none, ?_, ?_⟩
    · rw [ExportOptions.drawn_of_none hSecret, List.drop_zero]
      exact (write_clear_eq_ok_iff hFormat hSecret).2
        ⟨⟨hPair.publicKey.length_blob_lt, hSection⟩, rfl, rfl⟩
    · rw [load_of_decode (decode_toContainer hPair hSection _)]
      exact hConsistent.ofPair_eq k.comment
  | some s =>
    obtain ⟨hPassphrase, hNe⟩ := ExportOptions.activePassphrase_eq_some hSecret
    have hNonEmpty := nonEmpty_some hNe
    have hDrawn : o.drawn = Container.drawn (some s) := by
      rw [ExportOptions.drawn, hSecret, Container.drawn_of_some hNonEmpty]
      rfl
    have hCipher : o.cipherUsed = Container.cipherFor (some s) o.cipher.forEncryption := by
      rw [ExportOptions.cipherUsed, hSecret, Container.cipherFor_of_some hNonEmpty]
      exact (CipherKind.forEncryption_forEncryption o.cipher).symm
    rw [hDrawn] at hSource ⊢
    rw [hCipher] at hSection
    obtain ⟨text, hEncode, hDecode⟩ := Container.exists_encode hPair (some s)
      o.cipher.forEncryption (some k.comment) hSource hSection
    refine ⟨text, o.cipher.forEncryption, ?_, ?_⟩
    · simp only [write, hFormat, hSecret, KeyPair.written_write]
      exact StateExcept.bind_eq_ok_iff.2 ⟨text, _, hEncode, rfl⟩
    · rw [hPassphrase, load_of_decode hDecode]
      exact hConsistent.ofPair_eq k.comment

/-- What is written as a document is written without a passphrase. -/
theorem activePassphrase_of_write {k : PrivateKey} {o : ExportOptions} {x : String × CipherKind}
    {source rest : Bytes} (hFormat : o.format ≠ .openssh) (h : k.write o source = .ok (x, rest)) :
    o.activePassphrase = none := by
  cases hSecret : o.activePassphrase with
  | none => rfl
  | some s =>
    cases hKind : o.format with
    | openssh => exact absurd hKind hFormat
    | pem | pkcs8 =>
      simp only [write, hKind, hSecret] at h
      cases h

/-- A PEM file keeps the key alone.  It is in the clear, so it draws nothing. -/
theorem exists_write_pem {k : PrivateKey} {o : ExportOptions} (hConsistent : k.pair.Consistent)
    (hFits : k.pair.Fits) (hFormat : o.format ≠ .openssh) (hSecret : o.activePassphrase = none)
    (source : Bytes) : ∃ text cipher, k.write o source = .ok ((text, cipher), source) ∧
      ∀ passphrase, load text passphrase = .ok ⟨k.pair.recomputed, "", none⟩ := by
  have hOfPair := hConsistent.recomputed_spec.1.ofPair_eq ""
  have hLift {document : Except Failure String} {text : String} (hText : document = .ok text) :
      (do pure (← document, CipherKind.none) : Random (String × CipherKind)) source =
        .ok ((text, .none), source) :=
    StateExcept.bind_eq_ok_iff.2 ⟨text, source, StateExcept.lift_eq_ok_iff.2 ⟨hText, rfl⟩, rfl⟩
  cases hKind : o.format with
  | openssh => exact absurd hKind hFormat
  | pem =>
    obtain ⟨text, hText, hLoad⟩ := KeyPair.exists_toPem hConsistent hFits
    refine ⟨text, .none, ?_, fun passphrase => (hLoad passphrase).trans hOfPair⟩
    simp only [write, hKind, hSecret]
    exact hLift hText
  | pkcs8 =>
    obtain ⟨text, hText, hLoad⟩ := KeyPair.exists_toPkcs8 hConsistent hFits
    refine ⟨text, .none, ?_, fun passphrase => (hLoad passphrase).trans hOfPair⟩
    simp only [write, hKind, hSecret]
    exact hLift hText

theorem exists_write {k : PrivateKey} {o : ExportOptions} {source : Bytes}
    (hConsistent : k.pair.Consistent) (hFits : k.pair.Fits) (hValid : o.validate = .ok ())
    (hSection : o.format = .openssh → Section.length k.pair.blob.length k.comment.utf8ByteSize
      o.cipherUsed.profile.blockSize < 2 ^ 32) (hSource : o.drawn ≤ source.length) :
    ∃ text cipher, k.write o source = .ok ((text, cipher), source.drop o.drawn) ∧
      load text o.passphrase = .ok (if o.format = .openssh then ⟨k.pair, k.comment, none⟩
        else ⟨k.pair.recomputed, "", none⟩) := by
  by_cases hFormat : o.format = .openssh
  · rw [if_pos hFormat]
    exact exists_write_container hConsistent hFits hFormat (hSection hFormat) hSource
  · have hSecret := ExportOptions.activePassphrase_eq_none hValid hFormat
    obtain ⟨text, cipher, hWrite, hLoad⟩ :=
      exists_write_pem hConsistent hFits hFormat hSecret source
    rw [if_neg hFormat, ExportOptions.drawn_of_none hSecret, List.drop_zero]
    exact ⟨text, cipher, hWrite, hLoad o.passphrase⟩

end PrivateKey

/-- A report has the type, the size and the fingerprints of the key. -/
structure PublicKeyInfo.Describes (i : PublicKeyInfo) (k : PublicKey) : Prop where
  keyType : k.keyType = .ok i.keyType
  bitLength : k.bitLength = .ok i.bitLength
  fingerprints : i.fingerprints = k.fingerprints

namespace PrivateKey

/-- **What is written is loaded with the passphrase it was written under.** -/
theorem exists_exportWith {k : PrivateKey} {o : ExportOptions} {source : Bytes}
    (hConsistent : k.pair.Consistent) (hFits : k.pair.Fits) (hValid : o.validate = .ok ())
    (hSection : k.SectionFits o) (hSource : o.drawn ≤ source.length) :
    ∃ x, k.exportWith o source = .ok (x, source.drop o.drawn) ∧ x.info.Describes k.publicKey ∧
      load x.text o.passphrase = .ok (k.after o) := by
  obtain ⟨t, n, hType, hBits⟩ := hConsistent.exists_info
  -- What is written is the key under the comment of the options.
  obtain ⟨text, cipher, hWrite, hLoad⟩ := exists_write
    (k := k.withComment (o.comment.getD k.comment)) hConsistent hFits hValid hSection hSource
  have hInfo : (k.withComment (o.comment.getD k.comment)).info =
      .ok ⟨t, n, k.publicKey.line (o.comment.getD k.comment), k.publicKey.fingerprints⟩ := by
    simp only [info, withComment, publicKey, PublicKey.info, hType, hBits]
    rfl
  refine ⟨_, StateExcept.bind_eq_ok_iff.2 ⟨_, _, hWrite, StateExcept.bind_eq_ok_iff.2 ⟨_, _,
    StateExcept.lift_eq_ok_iff.2 ⟨hInfo, rfl⟩, rfl⟩⟩, ⟨hType, hBits, rfl⟩, hLoad⟩

end PrivateKey

/-! ## Chains -/

/-- Converts a text again and again, each time with the passphrase chosen the time before. -/
def convertAll (text : String) (passphrase : Option String) :
    List ExportOptions → Random (List ExportedKey)
  | [] => pure []
  | o :: rest => do
    let x ← convert text passphrase o
    let xs ← convertAll x.text o.passphrase rest
    pure (x :: xs)

/-- Writes a key out under the first options and converts the text under each of the others. -/
def PrivateKey.exportAll (k : PrivateKey) : List ExportOptions → Random (List ExportedKey)
  | [] => pure []
  | o :: rest => do
    let x ← k.exportWith o
    let xs ← convertAll x.text o.passphrase rest
    pure (x :: xs)

/-- Every private section of a chain has a length that can be declared. -/
def PrivateKey.SectionsFit (k : PrivateKey) : List ExportOptions → Prop
  | [] => True
  | o :: rest => k.SectionFits o ∧ (k.after o).SectionsFit rest

/-- How many random bytes a chain draws. -/
def drawnBy (options : List ExportOptions) : Nat :=
  (options.map ExportOptions.drawn).sum

/-- The comment at the end of a chain: the last one given since a PEM file was written.  Without
any it is the one of the start, or empty once there was a PEM file. -/
def finalComment (start : String) (options : List ExportOptions) : String :=
  let recent := options.reverse.takeWhile (·.format = .openssh)
  (recent.findSome? (·.comment)).getD (if options.all (·.format = .openssh) then start else "")

theorem finalComment_concat (start : String) (options : List ExportOptions) (o : ExportOptions) :
    finalComment start (options ++ [o]) =
      if o.format = .openssh then o.comment.getD (finalComment start options) else "" := by
  rw [finalComment, finalComment, List.reverse_append, List.reverse_singleton,
    List.singleton_append, List.all_append]
  by_cases hFormat : o.format = .openssh
  · rw [List.takeWhile_cons_of_pos (by rw [hFormat]; rfl), if_pos hFormat, List.findSome?_cons]
    cases hComment : o.comment with
    | none => simp [hFormat]
    | some c => rfl
  · rw [List.takeWhile_cons_of_neg (by simpa using hFormat), if_neg hFormat]
    simp [hFormat]

theorem comment_foldl_after (k : PrivateKey) (options : List ExportOptions) :
    (options.foldl PrivateKey.after k).comment = finalComment k.comment options := by
  induction options using List.reverseRecOn with
  | nil => rfl
  | append_singleton options o ih =>
    rw [List.foldl_append, List.foldl_cons, List.foldl_nil, finalComment_concat, ← ih,
      PrivateKey.after]
    split <;> rfl

theorem pair_foldl_after {k : PrivateKey} (h : k.pair.Consistent) (options : List ExportOptions) :
    (options.foldl PrivateKey.after k).pair =
      if options.all (·.format = .openssh) then k.pair else k.pair.recomputed := by
  have hTwice := h.recomputed_spec.2.2
  induction options using List.reverseRecOn with
  | nil => rfl
  | append_singleton options o ih =>
    rw [List.foldl_append, List.foldl_cons, List.foldl_nil, List.all_append, PrivateKey.after]
    by_cases hFormat : o.format = .openssh
    · rw [if_pos hFormat]
      simp only [ih, hFormat, List.all_cons, List.all_nil, decide_true, Bool.and_true]
    · rw [if_neg hFormat]
      simp only [ih, hFormat, List.all_cons, List.all_nil, decide_false, Bool.false_and,
        Bool.and_false, Bool.false_eq_true, if_false]
      split
      · rfl
      · exact hTwice

/-- The key at the end of a chain. -/
theorem foldl_after {k : PrivateKey} (h : k.pair.Consistent) {options : List ExportOptions}
    (hNe : options ≠ []) :
    options.foldl PrivateKey.after k =
      ⟨if options.all (·.format = .openssh) then k.pair else k.pair.recomputed,
        finalComment k.comment options, none⟩ := by
  have hCheck : (options.foldl PrivateKey.after k).check = none := by
    obtain ⟨front, o, rfl⟩ := (List.eq_nil_or_concat' options).resolve_left hNe
    rw [List.foldl_append, List.foldl_cons, List.foldl_nil, PrivateKey.after]
    split <;> rfl
  rw [← pair_foldl_after h, ← comment_foldl_after, ← hCheck]

/-! ## Lengths -/

theorem PrivateKey.sectionFits_of_short {k : PrivateKey} (h : k.pair.Consistent)
    (hFits : k.pair.Fits) {o : ExportOptions}
    (hComment : (o.comment.getD k.comment).utf8ByteSize < 2 ^ 31) : k.SectionFits o := by
  intro _
  have hBlob := h.length_blob_le hFits
  have hBlock : o.cipherUsed.profile.blockSize ≤ 16 := by
    cases o.cipherUsed <;> decide
  have hPadding := Section.paddingLength_lt (Container.blockSize_pos o.cipherUsed)
    (8 + k.pair.blob.length + Field.stringLength (o.comment.getD k.comment).utf8ByteSize)
  simp only [Section.length, Field.stringLength] at hPadding ⊢
  omega

/-- Comments below two gigabytes make all sections fit. -/
theorem PrivateKey.sectionsFit_of_short {k : PrivateKey} (h : k.pair.Consistent)
    (hFits : k.pair.Fits) {options : List ExportOptions} (hStart : k.comment.utf8ByteSize < 2 ^ 31)
    (hComments : ∀ o ∈ options, ∀ c ∈ o.comment, c.utf8ByteSize < 2 ^ 31) :
    k.SectionsFit options := by
  induction options generalizing k with
  | nil => trivial
  | cons o rest ih =>
    have hComment : (o.comment.getD k.comment).utf8ByteSize < 2 ^ 31 := by
      cases hOwn : o.comment with
      | none => exact hStart
      | some c => exact hComments o List.mem_cons_self c hOwn
    obtain ⟨hNext, hNextFits⟩ := after_consistent h hFits o
    refine ⟨sectionFits_of_short h hFits hComment, ih hNext hNextFits ?_
      fun o' ho' => hComments o' (List.mem_cons_of_mem o ho')⟩
    rw [after]
    split
    · exact hComment
    · exact (by decide : "".utf8ByteSize < 2 ^ 31)

/-! ## All steps -/

/-- What a chain leaves: a report for each step, and a last text from which `final` is loaded.
Without any step that is the text the chain began with. -/
structure Follows (outs : List ExportedKey) (options : List ExportOptions) (text : String)
    (passphrase : Option String) (key : PublicKey) (final : PrivateKey) : Prop where
  length_eq : outs.length = options.length
  describes : ∀ x ∈ outs, x.info.Describes key
  load_eq : PrivateKey.load ((outs.getLast?.map (·.text)).getD text)
    ((options.getLast?.map (·.passphrase)).getD passphrase) = .ok final

theorem Follows.cons {outs : List ExportedKey} {options : List ExportOptions} {x : ExportedKey}
    {o : ExportOptions} {key : PublicKey} {final : PrivateKey}
    (h : Follows outs options x.text o.passphrase key final) (hInfo : x.info.Describes key)
    (text : String) (passphrase : Option String) :
    Follows (x :: outs) (o :: options) text passphrase key final := by
  refine ⟨by rw [List.length_cons, List.length_cons, h.length_eq], ?_, ?_⟩
  · intro y hy
    rcases List.mem_cons.1 hy with rfl | hy
    · exact hInfo
    · exact h.describes y hy
  · have hLoad := h.load_eq
    rw [List.getLast?_cons, List.getLast?_cons]
    generalize outs.getLast? = lastOut at hLoad ⊢
    generalize options.getLast? = lastOption at hLoad ⊢
    cases lastOut <;> cases lastOption <;> exact hLoad

/-- What follows depends on the text only through the key that is loaded from it. -/
theorem convertAll_eq_exportAll {text : String} {passphrase : Option String} {k : PrivateKey}
    {options : List ExportOptions} (hLoad : PrivateKey.load text passphrase = .ok k)
    (hValid : ∀ o ∈ options, o.validate = .ok ()) :
    convertAll text passphrase options = k.exportAll options := by
  cases options with
  | nil => rfl
  | cons o rest =>
    rw [convertAll, PrivateKey.exportAll,
      PrivateKey.convert_of_load hLoad (hValid o List.mem_cons_self)]

/-- The induction over the chain: the key that is loaded after a step is the one the other steps
start from. -/
theorem exists_follows {k : PrivateKey} {options : List ExportOptions} {source : Bytes}
    (hConsistent : k.pair.Consistent) (hFits : k.pair.Fits)
    (hValid : ∀ o ∈ options, o.validate = .ok ()) (hSections : k.SectionsFit options)
    (hSource : drawnBy options ≤ source.length) {text : String} {passphrase : Option String}
    (hLoad : options = [] → PrivateKey.load text passphrase = .ok k) :
    ∃ outs, k.exportAll options source = .ok (outs, source.drop (drawnBy options)) ∧
      Follows outs options text passphrase k.publicKey (options.foldl PrivateKey.after k) := by
  induction options generalizing text passphrase k source with
  | nil => exact ⟨[], rfl, rfl, (fun _ hx => nomatch hx), hLoad rfl⟩
  | cons o rest ih =>
    obtain ⟨hSection, hRest⟩ := hSections
    have hDrawn : drawnBy (o :: rest) = o.drawn + drawnBy rest := List.sum_cons
    rw [hDrawn] at hSource ⊢
    have hValidRest : ∀ o' ∈ rest, o'.validate = .ok () :=
      fun o' ho' => hValid o' (List.mem_cons_of_mem o ho')
    have hFirst : o.drawn ≤ source.length := by omega
    have hLeft : drawnBy rest ≤ (source.drop o.drawn).length := by
      rw [List.length_drop]
      omega
    obtain ⟨x, hExport, hInfo, hText⟩ := PrivateKey.exists_exportWith hConsistent hFits
      (hValid o List.mem_cons_self) hSection hFirst
    obtain ⟨hNext, hNextFits⟩ := PrivateKey.after_consistent hConsistent hFits o
    obtain ⟨outs, hOuts, hFollows⟩ := ih hNext hNextFits hValidRest hRest hLeft fun _ => hText
    rw [PrivateKey.publicKey_after] at hFollows
    rw [List.drop_drop, ← convertAll_eq_exportAll hText hValidRest] at hOuts
    exact ⟨x :: outs, StateExcept.bind_eq_ok_iff.2 ⟨x, _, hExport,
      StateExcept.bind_eq_ok_iff.2 ⟨outs, _, hOuts, rfl⟩⟩, hFollows.cons hInfo text passphrase⟩

/-- **A chain of conversions keeps the key.**  Every step reports it, and the last text gives it
back, with its inverse computed anew once a PEM file was written. -/
theorem exists_exportAll {k : PrivateKey} {options : List ExportOptions} {source : Bytes}
    (hConsistent : k.pair.Consistent) (hFits : k.pair.Fits) (hNe : options ≠ [])
    (hValid : ∀ o ∈ options, o.validate = .ok ()) (hSections : k.SectionsFit options)
    (hSource : drawnBy options ≤ source.length) :
    ∃ outs last, k.exportAll options source = .ok (outs, source.drop (drawnBy options)) ∧
      outs.length = options.length ∧ (∀ x ∈ outs, x.info.Describes k.publicKey) ∧
      outs.getLast? = some last ∧
      PrivateKey.load last.text (options.getLast hNe).passphrase =
        .ok ⟨if options.all (·.format = .openssh) then k.pair else k.pair.recomputed,
          finalComment k.comment options, none⟩ := by
  have hLoad (hNil : options = []) : PrivateKey.load "" none = .ok k := absurd hNil hNe
  obtain ⟨outs, hOuts, hFollows⟩ := exists_follows hConsistent hFits hValid hSections hSource hLoad
  have hLength := hFollows.length_eq
  have hOutsNe : outs ≠ [] := by
    rintro rfl
    exact hNe (List.length_eq_zero_iff.1 hLength.symm)
  have hLoad := hFollows.load_eq
  rw [List.getLast?_eq_some_getLast hOutsNe, List.getLast?_eq_some_getLast hNe,
    foldl_after hConsistent hNe] at hLoad
  exact ⟨outs, outs.getLast hOutsNe, hOuts, hLength, hFollows.describes,
    List.getLast?_eq_some_getLast hOutsNe, hLoad⟩

/-- A chain through a PEM file, a new comment and a passphrase. -/
theorem exists_exportAll_small :
    ∃ outs last, (⟨.rsa ⟨[15], [3], [3], [2], [3], [5]⟩, "a", none⟩ : PrivateKey).exportAll
        [{ format := .pem }, { passphrase := some "p", comment := some "c" }] (Bytes.zeros 20) =
        .ok (outs, (Bytes.zeros 20).drop 20) ∧
      outs.length = 2 ∧
      (∀ x ∈ outs, x.info.Describes (.rsa [3] [15])) ∧ outs.getLast? = some last ∧
      PrivateKey.load last.text (some "p") =
        .ok ⟨(KeyPair.rsa ⟨[15], [3], [3], [2], [3], [5]⟩).recomputed, "c", none⟩ := by
  have hConsistent : (KeyPair.rsa ⟨[15], [3], [3], [2], [3], [5]⟩).Consistent :=
    ⟨⟨rfl, rfl, rfl, rfl, rfl, rfl⟩, ⟨15, 3, 3, 3, 5⟩, rfl, rfl, by decide⟩
  have hOne (x : UInt8) : [x].length ≤ KeyReader.maxLength := by
    rw [List.length_singleton]
    decide
  have hFits : (KeyPair.rsa ⟨[15], [3], [3], [2], [3], [5]⟩).Fits :=
    ⟨hOne 15, hOne 3, hOne 3, hOne 2, hOne 3, hOne 5⟩
  have hSections : (⟨.rsa ⟨[15], [3], [3], [2], [3], [5]⟩, "a", none⟩ : PrivateKey).SectionsFit
      [{ format := .pem }, { passphrase := some "p", comment := some "c" }] :=
    PrivateKey.sectionsFit_of_short hConsistent hFits (by decide) (by decide)
  exact exists_exportAll hConsistent hFits (by decide) (by decide) hSections (by decide)

/-! ## Keys that do not fit -/

/-- What a container in the clear can be loaded as. -/
theorem PrivateKey.valid_of_load_toContainer {k k' : PrivateKey} {passphrase : Option String}
    (h : load k.toContainer passphrase = .ok k') :
    k'.pair.Valid ∧ k'.comment.utf8ByteSize < 2 ^ 32 := by
  have hUnwrap : Armor.unwrap k.toContainer = .ok _ :=
    Armor.unwrap_wrap (ContainerHeader.payload_ne_nil _)
  have hLt : CipherKind.none.name.utf8ByteSize < 2 ^ 32 := by decide
  have hName := Detection.declaredNameOf_append hLt
  rw [ContainerHeader.payload] at hUnwrap
  simp only [List.append_assoc] at hUnwrap
  obtain ⟨c, hDecode, rfl⟩ := exists_decode_of_load hUnwrap ((hName _).trans (if_neg (by decide))) h
  obtain ⟨_, _, _, _, _, _, hAccepts⟩ := Container.exists_accepts_iff.1 hDecode
  exact ⟨KeyPair.valid_of_read hAccepts.pair_eq, hAccepts.comment_lt⟩

/-- With small factors the private exponent may be as long as one likes: it only counts modulo
four. -/
theorem Rsa.check_small {d : Nat} (h : d % 4 = 3) : check ⟨15, 3, d, 3, 5⟩ = .ok () := by
  have hPublic : checkPublic 15 3 = .ok () := rfl
  have hFirst : inverseModPred ⟨15, 3, d, 3, 5⟩ 3 = true :=
    decide_eq_true (by show 3 * d % 2 = 1; omega)
  have hSecond : inverseModPred ⟨15, 3, d, 3, 5⟩ 5 = true :=
    decide_eq_true (by show 3 * d % 4 = 1; omega)
  simp only [check, hPublic, hFirst, hSecond]
  rfl

/-- Such an exponent, with the given digits inside. -/
def longExponent (digits : Bytes) : KeyPair :=
  .rsa ⟨[15], [3], 1 :: (digits ++ [3]), [2], [3], [5]⟩

theorem longExponent_consistent (digits : Bytes) : (longExponent digits).Consistent := by
  have hRemainder : Bytes.toNat (1 :: (digits ++ [3])) % 4 = 3 := by
    have hLast : Bytes.toNat [3] = 3 := rfl
    rw [← List.cons_append, Bytes.toNat_append, hLast, List.length_singleton]
    omega
  have hValue : Integer.value? (1 :: (digits ++ [3])) =
      some (Bytes.toNat (1 :: (digits ++ [3]))) := rfl
  generalize Bytes.toNat (1 :: (digits ++ [3])) = d at hRemainder hValue
  have hNumbers : RsaPair.numbers? ⟨[15], [3], 1 :: (digits ++ [3]), [2], [3], [5]⟩ =
      some ⟨15, 3, d, 3, 5⟩ := by
    rw [RsaPair.numbers?, hValue]
    rfl
  have hCoprime : Nat.Coprime 3 5 := by decide
  exact ⟨⟨rfl, rfl, rfl, rfl, rfl, rfl⟩, _, hNumbers, Rsa.check_small hRemainder, hCoprime⟩

/-- Options under which a container is written in the clear, with the comment of the key. -/
structure ExportOptions.IsClear (o : ExportOptions) : Prop where
  format_eq : o.format = .openssh
  secret_eq : o.activePassphrase = none
  comment_eq : o.comment = none

theorem ExportOptions.IsClear.validate_eq {o : ExportOptions} (h : o.IsClear) :
    o.validate = .ok () := by
  rw [validate, h.secret_eq]
  rfl

/-- Under such options a key is written as its container, and nothing is drawn. -/
theorem PrivateKey.exportWith_clear_eq_ok_iff {k : PrivateKey} {o : ExportOptions}
    (hClear : o.IsClear) {x : ExportedKey} {source rest : Bytes} :
    k.exportWith o source = .ok (x, rest) ↔ ∃ i, k.info = .ok i ∧
      Container.Declarable k.pair.blob k.publicKey.blob k.comment
        CipherKind.none.profile.blockSize ∧ x = ⟨k.toContainer, .openssh, .none, i⟩ ∧
      rest = source := by
  obtain ⟨hFormat, hSecret, hComment⟩ := hClear
  have hOwn : k.withComment (o.comment.getD k.comment) = k := by
    rw [hComment]
    rfl
  rw [exportWith, hOwn, hFormat]
  constructor
  · intro hExport
    obtain ⟨y, t, hWrite, hRest⟩ := StateExcept.bind_eq_ok_iff.1 hExport
    obtain ⟨i, u, hReport, hLast⟩ := StateExcept.bind_eq_ok_iff.1 hRest
    obtain ⟨hLengths, rfl, rfl⟩ := (write_clear_eq_ok_iff hFormat hSecret).1 hWrite
    obtain ⟨hInfo, rfl⟩ := StateExcept.lift_eq_ok_iff.1 hReport
    cases hLast
    exact ⟨i, hInfo, hLengths, rfl, rfl⟩
  · rintro ⟨i, hInfo, hLengths, rfl, rfl⟩
    exact StateExcept.bind_eq_ok_iff.2 ⟨_, rest,
      (write_clear_eq_ok_iff hFormat hSecret).2 ⟨hLengths, rfl, rfl⟩,
      StateExcept.bind_eq_ok_iff.2 ⟨i, rest, StateExcept.lift_eq_ok_iff.2 ⟨hInfo, rfl⟩, rfl⟩⟩

/-- The options that are taken when none are given are such options. -/
theorem PrivateKey.exportWith_default_eq_ok_iff {k : PrivateKey} {i : PublicKeyInfo}
    (h : k.info = .ok i) {x : ExportedKey} {source rest : Bytes} :
    k.exportWith {} source = .ok (x, rest) ↔ Container.Declarable k.pair.blob k.publicKey.blob
      k.comment CipherKind.none.profile.blockSize ∧ x = ⟨k.toContainer, .openssh, .none, i⟩ ∧
        rest = source := by
  rw [exportWith_clear_eq_ok_iff ⟨rfl, rfl, rfl⟩]
  constructor
  · rintro ⟨j, hInfo, hSame⟩
    cases h.symm.trans hInfo
    exact hSame
  · intro hSame
    exact ⟨i, h, hSame⟩

theorem PrivateKey.exportAll_default_eq_ok_iff {k : PrivateKey} {i : PublicKeyInfo}
    (h : k.info = .ok i) {xs : List ExportedKey} {source rest : Bytes} :
    k.exportAll [{}] source = .ok (xs, rest) ↔ Container.Declarable k.pair.blob k.publicKey.blob
      k.comment CipherKind.none.profile.blockSize ∧ xs = [⟨k.toContainer, .openssh, .none, i⟩] ∧
        rest = source := by
  constructor
  · intro hExport
    obtain ⟨x, t, hExport, hPure⟩ := StateExcept.bind_eq_ok_iff.1 hExport
    obtain ⟨hLengths, rfl, rfl⟩ := (exportWith_default_eq_ok_iff h).1 hExport
    cases hPure
    exact ⟨hLengths, rfl, rfl⟩
  · rintro ⟨hLengths, rfl, rfl⟩
    exact StateExcept.bind_eq_ok_iff.2 ⟨_, rest,
      (exportWith_default_eq_ok_iff h).2 ⟨hLengths, rfl, rfl⟩, rfl⟩

/-- An RSA key of just under four gigabytes can still be declared. -/
theorem declarable_rsa {k : RsaPair} (h : k.n.length + k.e.length + k.d.length + k.iqmp.length +
    k.p.length + k.q.length < 2 ^ 32 - 2 ^ 10) :
    Container.Declarable (KeyPair.rsa k).blob (KeyPair.rsa k).publicKey.blob ""
      CipherKind.none.profile.blockSize := by
  have hName : Algorithm.rsa.name.utf8ByteSize = 7 := by decide
  have hEmpty : "".utf8ByteSize = 0 := by decide
  have hMax : Field.lengthLimit = 2 ^ 32 := rfl
  have hBlock : CipherKind.none.profile.blockSize = 8 := rfl
  have hPadding := Section.paddingLength_lt (Container.blockSize_pos .none)
    (8 + (KeyPair.rsa k).blob.length + Field.stringLength "".utf8ByteSize)
  constructor
  · simp only [KeyPair.publicKey, PublicKey.blob, PublicKey.fields, List.length_append,
      Field.length_putString, Field.length_putText, Field.stringLength, PublicKey.algorithm, hName,
      hMax]
    omega
  · simp only [KeyPair.publicKey, KeyPair.blob, KeyPair.fields, KeyPair.algorithm, Section.length,
      hEmpty, hBlock, List.length_append, Field.length_putString, Field.length_putText,
      Field.stringLength, PublicKey.algorithm, hName, hMax] at hPadding ⊢
    omega

theorem declarable_longExponent {digits : Bytes} (h : digits.length < 2 ^ 31) :
    Container.Declarable (longExponent digits).blob (longExponent digits).publicKey.blob ""
      CipherKind.none.profile.blockSize := by
  refine declarable_rsa ?_
  simp only [List.length_cons, List.length_append, List.length_nil]
  omega

theorem utf8ByteSize_replicate (n : Nat) :
    (String.ofList (List.replicate n 'a')).utf8ByteSize = n := by
  have hAscii : Bytes.isAscii (String.ofList (List.replicate n 'a')).toList = true := by
    refine Bytes.isAscii_iff.2 fun c hc => ?_
    rw [String.toList_ofList] at hc
    rw [List.eq_of_mem_replicate hc]
    decide
  rw [← Bytes.length_ofString, Bytes.ofString_ascii hAscii, List.length_map, String.toList_ofList,
    List.length_replicate]

/-- What a container gives has an exponent of the size of a field. -/
theorem length_of_valid_longExponent {digits : Bytes}
    (h : (longExponent digits).Valid ∨ (longExponent digits).recomputed.Valid) :
    digits.length + 2 ≤ KeyReader.maxLength := by
  have hExponent : (1 :: (digits ++ [3])).length = digits.length + 2 := by
    rw [List.length_cons, List.length_append, List.length_singleton]
  rw [← hExponent]
  rcases h with h | h
  · exact h.secret.1.2
  · rw [longExponent, KeyPair.recomputed, RsaPair.recomputed] at h
    split at h
    · exact h.secret.1.2
    · exact h.secret.1.2

/-- Two keys that a chain of one step does not keep: one has an exponent of a megabyte, the other
a comment of four gigabytes. -/
theorem not_load_of_long :
    (∃ k : PrivateKey, k.pair.Consistent ∧ ∃ x, k.exportAll [{}] [] = .ok ([x], []) ∧
      ∀ k', PrivateKey.load x.text none = .ok k' →
        k'.pair ≠ k.pair ∧ k'.pair ≠ k.pair.recomputed) ∧
    ∃ k : PrivateKey, k.pair.Consistent ∧ k.pair.Fits ∧
      ¬∃ x k', k.exportAll [{}] [] = .ok ([x], []) ∧ PrivateKey.load x.text none = .ok k' ∧
        k'.comment = k.comment := by
  obtain ⟨digits, hDigits⟩ : ∃ digits : Bytes, digits.length = KeyReader.maxLength - 1 :=
    ⟨List.replicate _ 0, List.length_replicate⟩
  obtain ⟨comment, hComment⟩ : ∃ comment : String, comment.utf8ByteSize = 2 ^ 32 :=
    ⟨_, utf8ByteSize_replicate _⟩
  have hMax : KeyReader.maxLength = 1048575 := rfl
  have hShort : digits.length < 2 ^ 31 := by omega
  have hDeclarable := declarable_longExponent hShort
  refine ⟨⟨⟨longExponent digits, "", none⟩, longExponent_consistent _, _,
      (PrivateKey.exportAll_default_eq_ok_iff rfl).2 ⟨hDeclarable, rfl, rfl⟩, fun k' h => ?_⟩,
    ⟨KeyPair.ofSeed (Bytes.zeros 32), comment, none⟩, ⟨List.length_replicate, rfl⟩, trivial, ?_⟩
  · -- A key that is loaded has no field as long as this exponent.
    have hValid := (PrivateKey.valid_of_load_toContainer h).1
    have hNot (hPair : k'.pair = longExponent digits ∨ k'.pair = (longExponent digits).recomputed) :
        False := by
      have hLength := length_of_valid_longExponent (hPair.imp (· ▸ hValid) (· ▸ hValid))
      omega
    exact ⟨fun hPair => hNot (.inl hPair), fun hPair => hNot (.inr hPair)⟩
  · -- The length of the other comment does not go into the four bytes there are for it.
    rintro ⟨x, k', hExport, -⟩
    obtain ⟨⟨-, hSection⟩, -⟩ := (PrivateKey.exportAll_default_eq_ok_iff rfl).1 hExport
    simp only [Section.length, Field.stringLength, hComment] at hSection
    have hLimit : Field.lengthLimit = 2 ^ 32 := rfl
    omega

end SshKeys
