import SshKeys.Proofs.Faults

/-!
# How containers fail

A container that cannot be read has a fault of the format, or is locked and was
read without a passphrase, or with a wrong one: `Failure.OfContainer`.  The other
branches of the reader are never taken.  The bounds on the parameters of the key
derivation, which the reader of the clear part checks, make sure that material is
derived (`exists_material`), and it has the length that both ciphers ask for
(`CipherProfile.failsOnly_decrypt_of_length`).

`Container.failures_closed`: **reading fails in these ways only, and writing only
when the source of randomness runs out or there is no room**, if the lengths can be
declared.
-/

namespace SshKeys

/-- A failure of a reader of containers.  That a passphrase is missing or wrong is found only of
a container that is locked. -/
inductive Failure.OfContainer (locked : Prop) (passphrase : Option String) : Failure → Prop
  | format {f : Failure} (h : f.OfFormat) : OfContainer locked passphrase f
  | required (h : locked) (hNone : nonEmpty passphrase = none) :
    OfContainer locked passphrase .passphraseRequired
  | wrong {s : String} (h : locked) (hSome : passphrase = some s) (hNe : s ≠ "") :
    OfContainer locked passphrase .decryptionFailed

theorem Failure.OfContainer.mono {p q : Prop} {passphrase : Option String} {f : Failure}
    (h : f.OfContainer p passphrase) (hpq : p → q) : f.OfContainer q passphrase := by
  cases h with
  | format h => exact .format h
  | required h hNone => exact .required (hpq h) hNone
  | wrong h hSome hNe => exact .wrong (hpq h) hSome hNe

theorem nonEmpty_eq_none_iff {passphrase : Option String} :
    nonEmpty passphrase = none ↔ passphrase = none ∨ passphrase = some "" := by
  constructor
  · intro hNone
    cases passphrase with
    | none => exact .inl rfl
    | some s =>
      by_cases hs : s = ""
      · exact .inr (congrArg some hs)
      · rw [nonEmpty_some hs] at hNone
        cases hNone
  · rintro (rfl | rfl)
    · rfl
    · rw [Option.eq_none_iff_forall_ne_some]
      intro b hSome
      obtain ⟨s, hs, hNe, -⟩ := nonEmpty_eq_some_iff.1 hSome
      exact hNe (Option.some.inj hs).symm

/-! ## Opening -/

theorem CipherKind.forEncryption_of_isEncrypted {k : CipherKind}
    (h : k.profile.isEncrypted = true) : k.forEncryption = k := by
  cases k with
  | none => cases h
  | aes256Ctr => rfl
  | chacha20Poly1305 => rfl

/-- What a header takes for the parameters of its key derivation can be used for it. -/
theorem ContainerHeader.Valid.inBounds {h : ContainerHeader} (hValid : h.Valid)
    {kdf : KdfParameters} (hKdf : h.kdf = some kdf) : kdf.InBounds := by
  rcases hValid.kdf with ⟨-, hNone⟩ | ⟨-, kdf', hOwn, hIn⟩
  · rw [hNone] at hKdf
    cases hKdf
  · rw [hOwn] at hKdf
    cases hKdf
    exact hIn

/-- Under a cipher there is always material to be had from the parameters of a file. -/
theorem exists_material {kdf : KdfParameters} (hBounds : kdf.InBounds) {k : CipherKind}
    (hEncrypted : k.profile.isEncrypted = true) {s : String} (hs : s ≠ "") :
    ∃ material, kdf.derive (Bytes.ofString s) k.profile.keyMaterialLength = .ok material ∧
      material.length = k.profile.keyMaterialLength := by
  obtain ⟨hZero, hMax⟩ := Container.keyMaterialLength_forEncryption k
  rw [CipherKind.forEncryption_of_isEncrypted hEncrypted] at hZero hMax
  exact KdfParameters.exists_derive (Bytes.ofString_eq_nil_iff.not.2 hs) hBounds.salt_ne
    hBounds.rounds_ne hZero hMax

/-- With material of the right length and a keystream that lasts, only the tag can be wrong, or cut
off. -/
theorem CipherProfile.failsOnly_decrypt_of_length {k : CipherKind} {sealed material : Bytes}
    (h : material.length = k.profile.keyMaterialLength)
    (hLasts : k.Lasts (sealed.length - k.profile.tagLength)) :
    FailsOnly (fun f => f.OfFormat ∨ f = .decryptionFailed)
      (k.profile.decrypt sealed material) := by
  cases k with
  | none =>
    rw [decrypt_none h]
    exact failsOnly_ok _
  | aes256Ctr =>
    rw [decrypt_aes h]
    exact failsOnly_ok _
  | chacha20Poly1305 =>
    have hSame : ChaChaPoly.checkMaterial material = .ok () := if_pos h
    have hLength : (sealed.take (sealed.length - ChaChaPoly.tagLength)).length =
        sealed.length - ChaChaPoly.tagLength := List.length_take_of_le (Nat.sub_le ..)
    have hApply : ChaChaPoly.apply (sealed.take (sealed.length - ChaChaPoly.tagLength)) material =
        .ok (ChaChaPoly.mask material (sealed.take (sealed.length - ChaChaPoly.tagLength))) :=
      ChaChaPoly.apply_eq_ok_iff.2 ⟨by rw [hLength]; exact hLasts rfl, rfl⟩
    rw [decrypt_chacha h, ChaChaPoly.decrypt, hSame]
    split
    · exact failsOnly_error (.inl (.inl rfl))
    · show FailsOnly _ (if _ then _ else _)
      rw [hApply]
      split
      · exact failsOnly_ok _
      · exact failsOnly_error (.inr rfl)

namespace Container

variable {h : ContainerHeader} {passphrase : Option String}

theorem failsOnly_openSection_of_valid (hValid : h.Valid) {k : CipherKind}
    (hTag : h.tag.length = k.profile.tagLength) :
    FailsOnly (Failure.OfContainer (k.profile.isEncrypted = true) passphrase)
      (openSection h k.profile passphrase) := by
  -- The reader declared the length of the section, so the keystream lasts for it.
  have hLasts : k.Lasts ((h.privateSection ++ h.tag).length - k.profile.tagLength) := by
    rw [List.length_append, hTag, Nat.add_sub_cancel]
    exact k.lasts_of_lt hValid.privateSection_lt
  rw [openSection]
  split
  · next hEncrypted =>
    cases hKdf : h.kdf with
    | none => exact failsOnly_error (.format (.inl rfl))
    | some kdf =>
      cases hSecret : nonEmpty passphrase with
      | none => exact failsOnly_error (.required hEncrypted hSecret)
      | some secret =>
        obtain ⟨s, hSome, hs, rfl⟩ := nonEmpty_eq_some_iff.1 hSecret
        obtain ⟨material, hMaterial, hLength⟩ :=
          exists_material (hValid.inBounds hKdf) hEncrypted hs
        simp only [hMaterial]
        refine (CipherProfile.failsOnly_decrypt_of_length hLength hLasts).mono ?_
        rintro f (hFormat | rfl)
        · exact .format hFormat
        · exact .wrong hEncrypted hSome hs
  · exact failsOnly_ok _

/-- A section that was opened under a cipher was opened with a passphrase. -/
theorem Opens.exists_passphrase {k : CipherKind} {plain : Bytes}
    (hOpens : Opens h k.profile passphrase plain) (hEncrypted : k.profile.isEncrypted = true) :
    ∃ s, passphrase = some s ∧ s ≠ "" := by
  rw [Opens, if_pos hEncrypted] at hOpens
  obtain ⟨_, s, _, -, hSome, hs, -⟩ := hOpens
  exact ⟨s, hSome, hs⟩

theorem failsOnly_ofHeader (hValid : h.Valid) :
    FailsOnly (Failure.OfContainer
        (∃ k : CipherKind, k.profile.isEncrypted = true ∧ h.cipherName = k.name) passphrase)
      (ofHeader h passphrase) := by
  cases hName : CipherProfile.byName? h.cipherName with
  | none =>
    rw [ofHeader, hName]
    exact failsOnly_error (.format (.inr rfl))
  | some profile =>
    obtain ⟨k, rfl, hKind⟩ := CipherProfile.byName?_eq_some_iff.1 hName
    rw [ofHeader, hName]
    refine failsOnly_refuse (.format (.inl rfl)) fun _ =>
      failsOnly_refuse (.format (.inl rfl)) fun hTag => ?_
    refine FailsOnly.bind_of_ok ?_ fun plain hPlain => FailsOnly.bind ?_ fun _ => failsOnly_ok _
    · exact (failsOnly_openSection_of_valid hValid (not_not.1 hTag)).mono fun _ hf =>
        hf.mono fun hEncrypted => ⟨k, hEncrypted, hKind⟩
    · refine Section.readsOnly_parse (fun _ => .format) (fun hEncrypted => ?_) plain
      obtain ⟨s, hSome, hs⟩ := (openSection_eq_ok_iff.1 hPlain).exists_passphrase hEncrypted
      exact .wrong ⟨k, hEncrypted, hKind⟩ hSome hs

/-- The text declares one of the two ciphers that containers are sealed with. -/
def Locked (text : String) : Prop :=
  ∃ k : CipherKind, k.profile.isEncrypted = true ∧ Declares text k.name

theorem failsOnly_decode (text : String) (passphrase : Option String) :
    FailsOnly (Failure.OfContainer (Locked text) passphrase) (decode text passphrase) := by
  refine FailsOnly.bind_of_ok ?_ fun h hParse => ?_
  · exact (ContainerHeader.failsOnly_parse text).mono fun _ => .format
  · obtain ⟨payload, -, hPayload⟩ := Result.bind_eq_ok_iff.1 hParse
    obtain ⟨-, hValid⟩ := ContainerHeader.ofPayload_eq_ok_iff.1 hPayload
    refine (failsOnly_ofHeader hValid).mono fun f hf => hf.mono ?_
    rintro ⟨k, hEncrypted, hName⟩
    exact ⟨k, hEncrypted, hName ▸ declares_of_parse hParse⟩

end Container

/-! ## Writing -/

theorem Random.bytes_of_short {n : Nat} {source : Bytes} (h : source.length < n) :
    ∃ what, bytes n source = .error (.randomSourceFailure what) :=
  ⟨_, if_pos h⟩

theorem Random.word_of_short {source : Bytes} (h : source.length < 4) :
    ∃ what, word source = .error (.randomSourceFailure what) := by
  obtain ⟨what, hBytes⟩ := bytes_of_short h
  exact ⟨what, StateExcept.bind_of_error hBytes⟩

namespace Container

variable {passphrase : Option String}

section Writing

variable {memory : Allocator} {pair publicBlob source : Bytes} {passphrase comment : Option String}
  {requested : CipherKind} {f : Failure}

/-- The random bytes are drawn before there is anything to write. -/
theorem encodeWith_of_short (hSource : source.length < drawn passphrase) :
    ∃ what, encodeWith memory pair publicBlob passphrase requested comment source =
      .error (.randomSourceFailure what) := by
  have hPayload : ∃ what, payload memory pair publicBlob passphrase requested comment source =
      .error (.randomSourceFailure what) := by
    cases hSecret : nonEmpty passphrase with
    | none =>
      rw [drawn_of_none hSecret] at hSource
      obtain ⟨what, hWord⟩ := Random.word_of_short hSource
      refine ⟨what, ?_⟩
      rw [payload, hSecret]
      exact StateExcept.bind_of_error hWord
    | some secret =>
      rw [drawn_of_some hSecret] at hSource
      rw [payload, hSecret]
      by_cases hSalt : source.length < KdfParameters.saltLength
      · obtain ⟨what, hBytes⟩ := Random.bytes_of_short hSalt
        have hKdf : KdfParameters.generate source = .error (.randomSourceFailure what) :=
          StateExcept.bind_of_error hBytes
        exact ⟨what, StateExcept.bind_of_error hKdf⟩
      · have hKdf := KdfParameters.generate_eq_ok_iff.2 ⟨not_lt.1 hSalt, rfl, rfl⟩
        have hLeft : (source.drop KdfParameters.saltLength).length < 4 := by
          rw [List.length_drop]
          omega
        obtain ⟨what, hWord⟩ := Random.word_of_short hLeft
        refine ⟨what, ?_⟩
        show (KdfParameters.generate >>= _) source = _
        rw [StateExcept.bind_of_ok hKdf]
        exact StateExcept.bind_of_error hWord
  obtain ⟨what, hPayload⟩ := hPayload
  exact ⟨what, StateExcept.bind_of_error hPayload⟩

/-- With enough random bytes, a container is not written exactly if there is no room for it. -/
theorem encodeWith_eq_error_iff (hSource : drawn passphrase ≤ source.length)
    (hLengths : Declarable pair publicBlob (comment.getD "")
      (cipherFor passphrase requested).profile.blockSize) :
    encodeWith memory pair publicBlob passphrase requested comment source = .error f ↔
      askForRoom memory pair publicBlob passphrase requested (comment.getD "") source =
        .error f := by
  obtain ⟨h, hEncode, -⟩ := exists_encodeWith hSource hLengths
  rw [hEncode memory, Result.bind_eq_error_iff]
  constructor
  · rintro (hRoom | ⟨_, -, hOk⟩)
    · exact hRoom
    · cases hOk
  · exact .inl

theorem kind_of_ask_error {purpose : String} {n : Nat} (h : memory.ask purpose n = .error f) :
    f.kind = .allocationFailure := by
  rw [Allocator.ask] at h
  split at h
  · cases h
  · cases h
    rfl

theorem kind_of_askForRoom_error
    (h : askForRoom memory pair publicBlob passphrase requested (comment.getD "") source =
      .error f) : f.kind = .allocationFailure := by
  rcases Result.bind_eq_error_iff.1 h with hSection | ⟨_, -, hPayload⟩
  · exact kind_of_ask_error hSection
  · exact kind_of_ask_error hPayload

end Writing

/-- **The ways in which a container is not read or not written.**  Writing one asks the allocator
for room twice; where it has both, the source of randomness alone can fail it. -/
theorem failures_closed :
    (∀ text passphrase f, decode text passphrase = .error f →
      (f.kind = .malformedContainer ∨ f.kind = .unsupportedAlgorithm ∨
        f.kind = .passphraseRequired ∨ f.kind = .decryptionFailed) ∧
      (f.kind = .passphraseRequired →
        Locked text ∧ (passphrase = none ∨ passphrase = some "")) ∧
      (f.kind = .decryptionFailed → Locked text ∧ ∃ s, passphrase = some s ∧ s ≠ "")) ∧
    ∀ memory pair publicBlob passphrase requested comment source f,
      Declarable pair publicBlob (comment.getD "")
        (cipherFor passphrase requested).profile.blockSize →
      encodeWith memory pair publicBlob passphrase requested comment source = .error f →
      (askForRoom memory pair publicBlob passphrase requested (comment.getD "") source = .ok () →
        f.kind = .randomSourceFailure) ∧
      (source.length < drawn passphrase ∧ f.kind = .randomSourceFailure ∨
        drawn passphrase ≤ source.length ∧ f.kind = .allocationFailure ∧
          askForRoom memory pair publicBlob passphrase requested (comment.getD "") source =
            .error f) := by
  refine ⟨fun text passphrase f hDecode => ?_, ?_⟩
  · cases failsOnly_decode text passphrase f hDecode with
    | format hFormat =>
      refine ⟨hFormat.elim .inl fun h => .inr (.inl h), ?_, ?_⟩
      · intro hKind
        rcases hFormat with h | h <;> cases h.symm.trans hKind
      · intro hKind
        rcases hFormat with h | h <;> cases h.symm.trans hKind
    | required hLocked hNone =>
      exact ⟨.inr (.inr (.inl rfl)), fun _ => ⟨hLocked, nonEmpty_eq_none_iff.1 hNone⟩,
        fun hKind => nomatch hKind⟩
    | wrong hLocked hSome hs =>
      exact ⟨.inr (.inr (.inr rfl)), fun hKind => (nomatch hKind),
        fun _ => ⟨hLocked, _, hSome, hs⟩⟩
  · intro memory pair publicBlob passphrase requested comment source f hLengths hEncode
    by_cases hSource : source.length < drawn passphrase
    · obtain ⟨what, hShort⟩ := encodeWith_of_short hSource
      cases hShort.symm.trans hEncode
      exact ⟨fun _ => rfl, .inl ⟨hSource, rfl⟩⟩
    · have hEnough := not_lt.1 hSource
      have hRoom := (encodeWith_eq_error_iff hEnough hLengths).1 hEncode
      refine ⟨fun hGranted => ?_, .inr ⟨hEnough, kind_of_askForRoom_error hRoom, hRoom⟩⟩
      cases hGranted.symm.trans hRoom

/-- A sealed container without a passphrase, an empty source, and an allocator that has nothing
left. -/
theorem failures_closed_sealed :
    (∃ text, decode text none = .error .passphraseRequired ∧ Locked text) ∧
      (∃ f, encodeWith .unlimited [] [] none .none none [] = .error f ∧
        f.kind = .randomSourceFailure) ∧
      ∃ f, encodeWith (fun _ _ => some "out of memory") [] [] none .none none (Bytes.zeros 4) =
        .error f ∧ f.kind = .allocationFailure := by
  have hValid : (ContainerHeader.mk CipherKind.aes256Ctr.name KdfParameters.bcryptName
      (some ⟨[1], 1⟩) [] (Bytes.zeros 16) []).Valid :=
    ⟨by decide, by decide, .inr ⟨rfl, ⟨[1], 1⟩, rfl, by decide, by decide⟩, by decide, by decide⟩
  have hDecode : decode (Armor.wrap (ContainerHeader.payload ⟨CipherKind.aes256Ctr.name,
      KdfParameters.bcryptName, some ⟨[1], 1⟩, [], Bytes.zeros 16, []⟩)) none =
        .error .passphraseRequired := by
    rw [decode, ContainerHeader.parse_wrap hValid]
    rfl
  have hLengths : Declarable [] [] ((none : Option String).getD "")
      (cipherFor none .none).profile.blockSize :=
    ⟨by decide, by decide⟩
  obtain ⟨what, hShort⟩ : ∃ what, encodeWith .unlimited [] [] none .none none [] =
      .error (.randomSourceFailure what) :=
    encodeWith_of_short (by decide)
  have hFull : encodeWith (fun _ _ => some "out of memory") [] [] none .none none
      (Bytes.zeros 4) = .error (Allocator.refusal "private section" 16 "out of memory") :=
    (encodeWith_eq_error_iff (by decide) hLengths).2 rfl
  refine ⟨⟨_, hDecode, ((failures_closed.1 _ _ _ hDecode).2.1 rfl).1⟩, ⟨_, hShort, ?_⟩,
    ⟨_, hFull, ?_⟩⟩
  · exact (failures_closed.2 _ _ _ _ _ _ _ _ hLengths hShort).1 rfl
  · rcases (failures_closed.2 _ _ _ _ _ _ _ _ hLengths hFull).2 with ⟨hLess, -⟩ | ⟨-, hKind, -⟩
    · exact absurd hLess (by decide)
    · exact hKind

end Container

end SshKeys
