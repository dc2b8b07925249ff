import SshKeys.Container
import SshKeys.Proofs.Armor
import SshKeys.Proofs.Cipher
import SshKeys.Proofs.Section

/-!
# Containers read back

`Container.Accepts` says field by field when a text is read as a container.

* `Container.decode_eq_ok_iff_accepts`: **`decode` succeeds exactly on the texts it
  accepts**, and the number of bytes that fill the section follows from what it
  holds.
* `Container.decode_encode_keyPair`: **what `encode` writes is read back** under the
  same passphrase, under every cipher.
-/

namespace SshKeys

theorem nonEmpty_eq_some_iff {passphrase : Option String} {b : Bytes} :
    nonEmpty passphrase = some b ↔ ∃ s, passphrase = some s ∧ s ≠ "" ∧ b = Bytes.ofString s := by
  have hNe (s : String) : Bytes.ofString s ≠ [] ↔ s ≠ "" := Bytes.ofString_eq_nil_iff.not
  rw [nonEmpty, Option.filter_eq_some_iff, Option.map_eq_some_iff]
  constructor
  · rintro ⟨⟨s, rfl, rfl⟩, h⟩
    exact ⟨s, rfl, (hNe s).1 (of_decide_eq_true h), rfl⟩
  · rintro ⟨s, rfl, hs, rfl⟩
    exact ⟨⟨s, rfl, rfl⟩, decide_eq_true ((hNe s).2 hs)⟩

theorem nonEmpty_some {s : String} (h : s ≠ "") : nonEmpty (some s) = some (Bytes.ofString s) :=
  nonEmpty_eq_some_iff.2 ⟨s, rfl, h, rfl⟩

/-! ## Headers in armor -/

namespace ContainerHeader

theorem payload_ne_nil (h : ContainerHeader) : h.payload ≠ [] := by
  simp [payload, magic]

theorem parse_wrap {h : ContainerHeader} (hValid : h.Valid) :
    parse (Armor.wrap h.payload) = .ok h := by
  rw [parse, Armor.unwrap_wrap h.payload_ne_nil]
  exact ofPayload_eq_ok_iff.2 ⟨rfl, hValid⟩

theorem parse_trim (text : String) : parse (Text.trim text) = parse text := by
  rw [parse, parse, Armor.unwrap_trim]

theorem publicKey_eq_ok_iff {h : ContainerHeader} {key : PublicKey} :
    h.publicKey = .ok key ↔ PublicKey.ofBlob h.publicBlob = .ok key := by
  rw [publicKey]
  cases PublicKey.ofBlob h.publicBlob with
  | error f =>
    constructor
    · intro hEq
      cases hEq
    · intro hEq
      cases hEq
  | ok k =>
    constructor <;> intro hEq <;> cases hEq <;> rfl

end ContainerHeader

namespace Container

/-! ## What is accepted -/

/-- `plain` is the private section, or what the profile opens the section and the tag to under
the key material of the passphrase. -/
def Opens (h : ContainerHeader) (profile : CipherProfile) (passphrase : Option String)
    (plain : Bytes) : Prop :=
  if profile.isEncrypted then
    ∃ kdf s material, h.kdf = some kdf ∧ passphrase = some s ∧ s ≠ "" ∧
      kdf.derive (Bytes.ofString s) profile.keyMaterialLength = .ok material ∧
      profile.decrypt (h.privateSection ++ h.tag) material = .ok plain
  else plain = h.privateSection

/-- The text holds the container: its header is `h`, the plaintext of its private section is
`plain`, and in it the key pair is read from `kb` and `k` bytes fill the last block. -/
structure Accepts (text : String) (passphrase : Option String) (c : Container)
    (h : ContainerHeader) (profile : CipherProfile) (plain : Bytes) (check : UInt32) (kb : Bytes)
    (k : Nat) : Prop where
  header : ContainerHeader.parse text = .ok h
  profile_eq : CipherProfile.byName? h.cipherName = some profile
  section_ne : h.privateSection ≠ []
  section_blocks : h.privateSection.length % profile.blockSize = 0
  tag_length : h.tag.length = profile.tagLength
  opens : Opens h profile passphrase plain
  plain_eq : plain = Bytes.be32 check ++ Bytes.be32 check ++ kb ++ Field.putText c.comment ++
    Section.padding k
  padding_lt : k < profile.blockSize
  pair_eq : KeyPair.read kb = .ok (c.pair, [])
  comment_lt : c.comment.utf8ByteSize < 2 ^ 32
  public_eq : PublicKey.ofBlob h.publicBlob = .ok c.pair.publicKey
  cipher_eq : c.cipher = profile.kind
  publicBlob_eq : c.publicBlob = h.publicBlob

theorem openSection_eq_ok_iff {h : ContainerHeader} {profile : CipherProfile}
    {passphrase : Option String} {plain : Bytes} :
    openSection h profile passphrase = .ok plain ↔ Opens h profile passphrase plain := by
  rw [openSection, Opens]
  by_cases hEnc : profile.isEncrypted = true
  · rw [if_pos hEnc, if_pos hEnc]
    constructor
    · intro hOpen
      split at hOpen
      · cases hOpen
      · next kdf hKdf =>
        split at hOpen
        · cases hOpen
        · next secret hSecret =>
          obtain ⟨s, hs, hNe, rfl⟩ := nonEmpty_eq_some_iff.1 hSecret
          obtain ⟨material, hMaterial, hPlain⟩ := Result.bind_eq_ok_iff.1 hOpen
          exact ⟨kdf, s, material, hKdf, hs, hNe, hMaterial, hPlain⟩
    · rintro ⟨kdf, s, material, hKdf, hs, hNe, hMaterial, hPlain⟩
      rw [hKdf, nonEmpty_eq_some_iff.2 ⟨s, hs, hNe, rfl⟩]
      exact Result.bind_eq_ok_iff.2 ⟨material, hMaterial, hPlain⟩
  · rw [if_neg hEnc, if_neg hEnc]
    constructor
    · rintro ⟨⟩
      rfl
    · rintro rfl
      rfl

/-- Opening takes the tag off and nothing else. -/
theorem Opens.length_eq {h : ContainerHeader} {k : CipherKind} {passphrase : Option String}
    {plain : Bytes} (hOpens : Opens h k.profile passphrase plain)
    (hTag : h.tag.length = k.profile.tagLength) : plain.length = h.privateSection.length := by
  rw [Opens] at hOpens
  split at hOpens
  · obtain ⟨kdf, s, material, -, -, -, -, hPlain⟩ := hOpens
    have hLength := CipherProfile.length_of_decrypt hPlain
    rw [List.length_append] at hLength
    omega
  · rw [hOpens]

theorem ofHeader_eq_ok_iff {h : ContainerHeader} {passphrase : Option String} {c : Container} :
    ofHeader h passphrase = .ok c ↔ ∃ profile plain,
      CipherProfile.byName? h.cipherName = some profile ∧ h.privateSection ≠ [] ∧
      h.privateSection.length % profile.blockSize = 0 ∧ h.tag.length = profile.tagLength ∧
      Opens h profile passphrase plain ∧
      (Section.parse h profile plain).1 = .ok ⟨c.pair, c.comment⟩ ∧ c.cipher = profile.kind ∧
      c.publicBlob = h.publicBlob := by
  rw [ofHeader]
  cases hName : CipherProfile.byName? h.cipherName with
  | none =>
    constructor
    · intro hEq
      cases hEq
    · rintro ⟨profile, plain, hSome, -⟩
      cases hSome
  | some profile =>
    constructor
    · intro hEq
      obtain ⟨hSection, hEq⟩ := Result.refuse_eq_ok_iff.1 hEq
      obtain ⟨hTag, hEq⟩ := Result.refuse_eq_ok_iff.1 hEq
      obtain ⟨plain, hOpen, hEq⟩ := Result.bind_eq_ok_iff.1 hEq
      obtain ⟨content, hContent, hEq⟩ := Result.bind_eq_ok_iff.1 hEq
      cases hEq
      rw [not_or, not_not, List.length_eq_zero_iff] at hSection
      exact ⟨profile, plain, rfl, hSection.1, hSection.2, not_not.1 hTag,
        openSection_eq_ok_iff.1 hOpen, hContent, rfl, rfl⟩
    · rintro ⟨_, plain, hSome, hNe, hBlocks, hTag, hOpens, hContent, hCipher, hBlob⟩
      cases hSome
      have hSection : ¬(h.privateSection.length = 0 ∨
          h.privateSection.length % profile.blockSize ≠ 0) := by
        rw [not_or, not_not, List.length_eq_zero_iff]
        exact ⟨hNe, hBlocks⟩
      refine Result.refuse_eq_ok_iff.2 ⟨hSection, ?_⟩
      refine Result.refuse_eq_ok_iff.2 ⟨not_not.2 hTag, ?_⟩
      refine Result.bind_eq_ok_iff.2 ⟨plain, openSection_eq_ok_iff.2 hOpens, ?_⟩
      refine Result.bind_eq_ok_iff.2 ⟨_, hContent, ?_⟩
      rw [← hCipher, ← hBlob]
      rfl

/-- Once the lengths are right, all depends on what the section is opened to. -/
theorem ofHeader_of_shape {h : ContainerHeader} {profile : CipherProfile}
    (hName : CipherProfile.byName? h.cipherName = some profile) (hNe : h.privateSection ≠ [])
    (hBlocks : h.privateSection.length % profile.blockSize = 0)
    (hTag : h.tag.length = profile.tagLength) (passphrase : Option String) :
    ofHeader h passphrase = (do
      let plain ← openSection h profile passphrase
      let content ← (Section.parse h profile plain).1
      pure ⟨profile.kind, content.pair, content.comment, h.publicBlob⟩) := by
  have hSection : ¬(h.privateSection.length = 0 ∨
      h.privateSection.length % profile.blockSize ≠ 0) := by
    rw [not_or, not_not, List.length_eq_zero_iff]
    exact ⟨hNe, hBlocks⟩
  rw [ofHeader, hName]
  simp only [if_neg hSection, if_neg (not_not.2 hTag)]

/-- What is wrong with the content of a section is reported as it is. -/
theorem ofHeader_of_parse_error {h : ContainerHeader} {profile : CipherProfile}
    {passphrase : Option String} {plain : Bytes} {f : Failure}
    (hName : CipherProfile.byName? h.cipherName = some profile) (hNe : h.privateSection ≠ [])
    (hBlocks : h.privateSection.length % profile.blockSize = 0)
    (hTag : h.tag.length = profile.tagLength) (hOpens : Opens h profile passphrase plain)
    (hParse : (Section.parse h profile plain).1 = .error f) :
    ofHeader h passphrase = .error f := by
  rw [ofHeader_of_shape hName hNe hBlocks hTag]
  simp only [openSection_eq_ok_iff.2 hOpens, hParse, bind, Except.bind]

theorem exists_accepts_iff {text : String} {passphrase : Option String} {c : Container} :
    decode text passphrase = .ok c ↔
      ∃ h profile plain check kb k, Accepts text passphrase c h profile plain check kb k := by
  rw [decode, Result.bind_eq_ok_iff]
  constructor
  · rintro ⟨h, hHeader, hDecode⟩
    obtain ⟨profile, plain, hName, hNe, hBlocks, hTag, hOpens, hContent, hCipher, hBlob⟩ :=
      ofHeader_eq_ok_iff.1 hDecode
    obtain ⟨hKey, check, kb, k, hPlain, hPair, hComment, hPadding⟩ :=
      Section.parse_eq_ok_iff.1 hContent
    exact ⟨h, profile, plain, check, kb, k, hHeader, hName, hNe, hBlocks, hTag, hOpens, hPlain,
      hPadding, hPair, hComment, ContainerHeader.publicKey_eq_ok_iff.1 hKey, hCipher, hBlob⟩
  · rintro ⟨h, profile, plain, check, kb, k, hAccepts⟩
    refine ⟨h, hAccepts.header, ofHeader_eq_ok_iff.2 ⟨profile, plain, hAccepts.profile_eq,
      hAccepts.section_ne, hAccepts.section_blocks, hAccepts.tag_length, hAccepts.opens, ?_,
      hAccepts.cipher_eq, hAccepts.publicBlob_eq⟩⟩
    exact Section.parse_eq_ok_iff.2 ⟨ContainerHeader.publicKey_eq_ok_iff.2 hAccepts.public_eq,
      check, kb, k, hAccepts.plain_eq, hAccepts.pair_eq, hAccepts.comment_lt, hAccepts.padding_lt⟩

theorem Accepts.eq_paddingLength {text : String} {passphrase : Option String} {c : Container}
    {h : ContainerHeader} {profile : CipherProfile} {plain : Bytes} {check : UInt32} {kb : Bytes}
    {k : Nat} (hAccepts : Accepts text passphrase c h profile plain check kb k) :
    k = Section.paddingLength (Section.content check kb c.comment).length profile.blockSize := by
  obtain ⟨kind, rfl, -⟩ := CipherProfile.byName?_eq_some_iff.1 hAccepts.profile_eq
  have hLength := hAccepts.opens.length_eq hAccepts.tag_length
  have hSplit : plain.length = (Section.content check kb c.comment).length + k := by
    rw [hAccepts.plain_eq, List.length_append, Section.length_padding]
    rfl
  refine Section.eq_paddingLength hAccepts.padding_lt ?_
  rw [← hSplit, hLength, hAccepts.section_blocks]

/-- **A text is read as a container exactly when it holds one**, and then how many bytes fill the
last block follows from the content. -/
theorem decode_eq_ok_iff_accepts (text : String) (passphrase : Option String) (c : Container) :
    (decode text passphrase = .ok c ↔
      ∃ h profile plain check kb k, Accepts text passphrase c h profile plain check kb k) ∧
    ∀ h profile plain check kb k, Accepts text passphrase c h profile plain check kb k →
      k = Section.paddingLength (Section.content check kb c.comment).length profile.blockSize :=
  ⟨exists_accepts_iff, fun _ _ _ _ _ _ hAccepts => hAccepts.eq_paddingLength⟩

/-! ## What is written -/

theorem blockSize_pos (k : CipherKind) : 0 < k.profile.blockSize := by
  cases k <;> decide

/-- A container whose section opens to one that holds a key is decoded to this key. -/
theorem decode_of_holds {text : String} {h : ContainerHeader} {k : CipherKind} {pair : KeyPair}
    {comment : String} {passphrase : Option String} {plain kb : Bytes} {check : UInt32} {n : Nat}
    (hParse : ContainerHeader.parse text = .ok h) (hName : h.cipherName = k.name)
    (hTag : h.tag.length = k.profile.tagLength)
    (hBlocks : h.privateSection.length % k.profile.blockSize = 0)
    (hOpens : Opens h k.profile passphrase plain)
    (hHolds : Section.Holds plain k.profile.blockSize pair comment check kb n)
    (hPublic : PublicKey.ofBlob h.publicBlob = .ok pair.publicKey) :
    decode text passphrase = .ok ⟨k, pair, comment, h.publicBlob⟩ := by
  have hLength := hOpens.length_eq hTag
  rw [hHolds.plain_eq, List.length_append, Section.length_content] at hLength
  have hNe : h.privateSection ≠ [] := List.ne_nil_of_length_pos (by omega)
  have hProfile : CipherProfile.byName? h.cipherName = some k.profile := by
    rw [hName]
    exact CipherProfile.byName?_name k
  exact exists_accepts_iff.2 ⟨h, k.profile, plain, check, kb, n, hParse, hProfile, hNe, hBlocks,
    hTag, hOpens, hHolds.plain_eq, hHolds.padding_lt, hHolds.pair_eq, hHolds.comment_lt, hPublic,
    k.profile_kind.symm, rfl⟩

/-- A container whose section opens to what `Section.build` writes is read back. -/
theorem decode_of_parse {text : String} {h : ContainerHeader} {k : CipherKind} {pair : KeyPair}
    {comment : String} {passphrase : Option String} {check : UInt32}
    (hParse : ContainerHeader.parse text = .ok h) (hName : h.cipherName = k.name)
    (hTag : h.tag.length = k.profile.tagLength)
    (hOpens : Opens h k.profile passphrase
      (Section.build check pair.blob comment k.profile.blockSize))
    (hBlob : h.publicBlob = pair.publicKey.blob) (hPair : pair.Valid)
    (hComment : comment.utf8ByteSize < 2 ^ 32) :
    decode text passphrase = .ok ⟨k, pair, comment, pair.publicKey.blob⟩ := by
  have hBlock := blockSize_pos k
  have hBlocks : h.privateSection.length % k.profile.blockSize = 0 := by
    rw [← hOpens.length_eq hTag, Section.length_build]
    exact Section.mod_add_paddingLength hBlock _
  have hPublic : PublicKey.ofBlob h.publicBlob = .ok pair.publicKey := by
    rw [hBlob]
    exact PublicKey.ofBlob_blob hPair.publicKey
  rw [← hBlob]
  exact decode_of_holds hParse hName hTag hBlocks hOpens
    (Section.holds_build hPair check hComment hBlock) hPublic

end Container

/-! ## Random parameters -/

theorem Random.bytes_eq_ok_iff {n : Nat} {source b rest : Bytes} :
    bytes n source = .ok (b, rest) ↔
      n ≤ source.length ∧ b = source.take n ∧ rest = source.drop n := by
  rw [bytes]
  by_cases h : source.length < n
  · rw [if_pos h]
    constructor
    · intro hEq
      cases hEq
    · rintro ⟨hLe, -⟩
      exact absurd hLe (by omega)
  · rw [if_neg h]
    constructor
    · intro hEq
      cases hEq
      exact ⟨by omega, rfl, rfl⟩
    · rintro ⟨-, rfl, rfl⟩
      rfl

theorem Random.word_eq_ok_iff {source rest : Bytes} {w : UInt32} :
    word source = .ok (w, rest) ↔
      4 ≤ source.length ∧ w = Field.wordOf (source.take 4) ∧ rest = source.drop 4 := by
  rw [word, StateExcept.bind_eq_ok_iff]
  constructor
  · rintro ⟨b, t, hBytes, hPure⟩
    obtain ⟨hLe, rfl, rfl⟩ := bytes_eq_ok_iff.1 hBytes
    cases hPure
    exact ⟨hLe, rfl, rfl⟩
  · rintro ⟨hLe, rfl, rfl⟩
    exact ⟨_, _, bytes_eq_ok_iff.2 ⟨hLe, rfl, rfl⟩, rfl⟩

namespace KdfParameters

/-- The parameters whose salt is drawn from a source. -/
def drawnFrom (source : Bytes) : KdfParameters :=
  ⟨source.take saltLength, defaultRounds⟩

theorem generate_eq_ok_iff {source rest : Bytes} {k : KdfParameters} :
    generate source = .ok (k, rest) ↔
      saltLength ≤ source.length ∧ k = drawnFrom source ∧ rest = source.drop saltLength := by
  rw [generate, StateExcept.bind_eq_ok_iff]
  constructor
  · rintro ⟨b, t, hBytes, hPure⟩
    obtain ⟨hLe, rfl, rfl⟩ := Random.bytes_eq_ok_iff.1 hBytes
    cases hPure
    exact ⟨hLe, rfl, rfl⟩
  · rintro ⟨hLe, rfl, rfl⟩
    exact ⟨_, _, Random.bytes_eq_ok_iff.2 ⟨hLe, rfl, rfl⟩, rfl⟩

/-- Fresh parameters are within the bounds set for those of a file. -/
theorem inBounds_drawnFrom {source : Bytes} (h : saltLength ≤ source.length) :
    (drawnFrom source).InBounds := by
  have hRounds : 1 ≤ defaultRounds.toNat ∧ defaultRounds.toNat ≤ maxRounds := by decide
  have hLength : 1 ≤ saltLength ∧ saltLength ≤ maxSaltLength := by decide
  refine ⟨hRounds, ?_⟩
  rwa [drawnFrom, List.length_take_of_le h]

end KdfParameters

namespace Container

/-- The cipher a container is written under. -/
def cipherFor (passphrase : Option String) (requested : CipherKind) : CipherKind :=
  if (nonEmpty passphrase).isSome then requested.forEncryption else .none

/-- How many bytes writing a container draws: a salt for the passphrase, and a check number. -/
def drawn (passphrase : Option String) : Nat :=
  if (nonEmpty passphrase).isSome then KdfParameters.saltLength + 4 else 4

theorem drawn_of_none {passphrase : Option String} (h : nonEmpty passphrase = none) :
    drawn passphrase = 4 := by
  rw [drawn, h]
  rfl

theorem drawn_of_some {passphrase : Option String} {b : Bytes} (h : nonEmpty passphrase = some b) :
    drawn passphrase = KdfParameters.saltLength + 4 := by
  rw [drawn, h]
  rfl

theorem cipherFor_of_none {passphrase : Option String} (h : nonEmpty passphrase = none)
    (requested : CipherKind) : cipherFor passphrase requested = .none := by
  rw [cipherFor, h]
  rfl

theorem cipherFor_of_some {passphrase : Option String} {b : Bytes}
    (h : nonEmpty passphrase = some b) (requested : CipherKind) :
    cipherFor passphrase requested = requested.forEncryption := by
  rw [cipherFor, h]
  rfl

theorem forEncryption_isEncrypted (k : CipherKind) :
    k.forEncryption.profile.isEncrypted = true := by
  cases k <;> rfl

theorem keyMaterialLength_forEncryption (k : CipherKind) :
    k.forEncryption.profile.keyMaterialLength ≠ 0 ∧
      k.forEncryption.profile.keyMaterialLength ≤ Bcrypt.maxOutput := by
  cases k <;> decide

/-- Every length that a container with these parts declares can be declared. -/
structure Declarable (pair publicBlob : Bytes) (comment : String) (block : Nat) : Prop where
  publicBlob_lt : publicBlob.length < Field.lengthLimit
  section_lt : Section.length pair.length comment.utf8ByteSize block < Field.lengthLimit

theorem Declarable.comment_lt {pair publicBlob : Bytes} {comment : String} {block : Nat}
    (h : Declarable pair publicBlob comment block) :
    comment.utf8ByteSize < Field.lengthLimit := by
  have hSection := h.section_lt
  simp only [Section.length, Field.stringLength] at hSection
  omega

/-- The parameters that sealing draws from a source; there are none without a passphrase. -/
def kdfFor (passphrase : Option String) (source : Bytes) : Option KdfParameters :=
  if (nonEmpty passphrase).isSome then some (.drawnFrom source) else none

theorem kdfFor_of_none {passphrase : Option String} (h : nonEmpty passphrase = none)
    (source : Bytes) : kdfFor passphrase source = none := by
  rw [kdfFor, h]
  rfl

theorem kdfFor_of_some {passphrase : Option String} {b : Bytes} (h : nonEmpty passphrase = some b)
    (source : Bytes) : kdfFor passphrase source = some (.drawnFrom source) := by
  rw [kdfFor, h]
  rfl

/-- Asks for the room that writing a container takes: first for the plaintext of its private
section, then for its payload. -/
def askForRoom (memory : Allocator) (pair publicBlob : Bytes) (passphrase : Option String)
    (requested : CipherKind) (comment : String) (source : Bytes) : Except Failure Unit := do
  let profile := (cipherFor passphrase requested).profile
  let n := Section.length pair.length comment.utf8ByteSize profile.blockSize
  memory.ask "private section" n
  memory.ask "container" (payloadLength profile (kdfFor passphrase source) publicBlob.length n)

/-- The header of a container around a sealed section whose plaintext has `n` bytes. -/
def headerOf (profile : CipherProfile) (kdf : Option KdfParameters) (publicBlob : Bytes) (n : Nat)
    (sealed : Bytes) : ContainerHeader :=
  ⟨profile.name, KdfParameters.nameOf kdf, kdf, publicBlob, sealed.take n, sealed.drop n⟩

section Header

variable {profile : CipherProfile} {kdf : Option KdfParameters} {publicBlob sealed : Bytes}
  {n : Nat}

theorem length_privateSection (hSealed : sealed.length = n + profile.tagLength) :
    (headerOf profile kdf publicBlob n sealed).privateSection.length = n := by
  rw [headerOf, List.length_take, hSealed]
  omega

theorem length_tag (hSealed : sealed.length = n + profile.tagLength) :
    (headerOf profile kdf publicBlob n sealed).tag.length = profile.tagLength := by
  rw [headerOf, List.length_drop, hSealed]
  omega

theorem length_header_payload (h : ContainerHeader) : h.payload.length =
    ContainerHeader.magic.length + Field.stringLength h.cipherName.utf8ByteSize
      + Field.stringLength h.kdfName.utf8ByteSize
      + Field.stringLength (ContainerHeader.putOptions h.kdf).length + 4
      + Field.stringLength h.publicBlob.length + Field.stringLength h.privateSection.length
      + h.tag.length := by
  simp only [ContainerHeader.payload, List.length_append, Field.length_putText,
    Field.length_putString, Bytes.length_be32]

/-- The room asked for a payload is what the payload takes. -/
theorem length_payload (hSealed : sealed.length = n + profile.tagLength) :
    (headerOf profile kdf publicBlob n sealed).payload.length =
      payloadLength profile kdf publicBlob.length n := by
  have hSection := @length_privateSection _ kdf publicBlob _ _ hSealed
  have hTag := @length_tag _ kdf publicBlob _ _ hSealed
  rw [length_header_payload, hSection, hTag]
  rfl

/-- What is written is the payload of the header, in a buffer with room for nothing else. -/
theorem write_of_lt (hBlob : publicBlob.length < Field.lengthLimit)
    (hSection : n < Field.lengthLimit)
    (hSealed : sealed.length = n + profile.tagLength) (memory : Allocator)
    (kdf : Option KdfParameters) : write memory profile kdf publicBlob n sealed =
      (do
        memory.ask "container" (payloadLength profile kdf publicBlob.length n)
        .ok (.full (headerOf profile kdf publicBlob n sealed).payload)) := by
  have hDeclared : Field.putString (sealed.take n) ++ sealed.drop n =
      Bytes.be32 (UInt32.ofNat n) ++ sealed := by
    have hLength : (sealed.take n).length = n := @length_privateSection _ kdf publicBlob _ _ hSealed
    rw [Field.putString, hLength, List.append_assoc, List.take_append_drop]
  have hPieces : [ContainerHeader.magic, Field.putText profile.name,
      Field.putText (KdfParameters.nameOf kdf),
      Field.putString (ContainerHeader.putOptions kdf), Bytes.be32 1, Field.putString publicBlob,
      Bytes.be32 (UInt32.ofNat n), sealed].flatten =
        (headerOf profile kdf publicBlob n sealed).payload := by
    simp only [List.flatten_cons, List.flatten_nil, List.append_nil, ContainerHeader.payload,
      headerOf, List.append_assoc, hDeclared]
  have hCheck := Field.checkLength_eq_ok_iff.2 hBlob
  simp only [write, Buffer.writeAll_eq_full (length_payload hSealed) hPieces, hCheck,
    Result.ok_bind, if_neg (not_le.2 hSection)]
  rfl

theorem lt_of_write {memory : Allocator} {b : Buffer UInt8}
    (h : write memory profile kdf publicBlob n sealed = .ok b) :
    publicBlob.length < Field.lengthLimit ∧ n < Field.lengthLimit := by
  obtain ⟨_, -, h⟩ := Result.bind_eq_ok_iff.1 h
  obtain ⟨_, hBlob, h⟩ := Result.bind_eq_ok_iff.1 h
  obtain ⟨hSection, -⟩ := Result.refuse_eq_ok_iff.1 h
  exact ⟨Field.checkLength_eq_ok_iff.1 hBlob, not_le.1 hSection⟩

/-- A payload is written around a section only if both are short enough. -/
theorem declarable_of_write {memory : Allocator} {check : UInt32} {pair : Bytes} {comment : String}
    {block : Nat} {plain b : Buffer UInt8}
    (hPlain : Section.write memory check pair comment block = .ok plain)
    (hWrite : write memory profile kdf publicBlob plain.written.length sealed = .ok b) :
    Declarable pair publicBlob comment block := by
  obtain ⟨hBlob, hSection⟩ := lt_of_write hWrite
  rw [Section.eq_full_of_write hPlain, Buffer.written_full, Section.length_build] at hSection
  exact ⟨hBlob, hSection⟩

end Header

/-- The header a container is written with: its salt, if it is sealed, comes first from the source
and its check number behind that. -/
structure Written (h : ContainerHeader) (pair publicBlob : Bytes) (passphrase : Option String)
    (requested : CipherKind) (comment : String) (source : Bytes) : Prop where
  cipherName_eq : h.cipherName = (cipherFor passphrase requested).name
  kdf_eq : h.kdfName = KdfParameters.noneName ∧ h.kdf = none ∧ nonEmpty passphrase = none ∨
    h.kdfName = KdfParameters.bcryptName ∧ h.kdf = some (.drawnFrom source) ∧
      nonEmpty passphrase ≠ none
  publicBlob_eq : h.publicBlob = publicBlob
  tag_length : h.tag.length = (cipherFor passphrase requested).profile.tagLength
  opens : Opens h (cipherFor passphrase requested).profile passphrase
    (Section.build (Field.wordOf ((source.drop (drawn passphrase - 4)).take 4)) pair comment
      (cipherFor passphrase requested).profile.blockSize)

theorem Written.valid {h : ContainerHeader} {pair publicBlob source : Bytes}
    {passphrase : Option String} {requested : CipherKind} {comment : String}
    (hWritten : Written h pair publicBlob passphrase requested comment source)
    (hSource : drawn passphrase ≤ source.length)
    (hLengths : Declarable pair publicBlob comment
      (cipherFor passphrase requested).profile.blockSize) : h.Valid := by
  have hLength := hWritten.opens.length_eq hWritten.tag_length
  rw [Section.length_build] at hLength
  have hKdf : ContainerHeader.KdfValid h.kdfName h.kdf := by
    rcases hWritten.kdf_eq with ⟨hName, hNone, -⟩ | ⟨hName, hSome, hSecret⟩
    · exact .inl ⟨hName, hNone⟩
    · rw [drawn, if_pos (Option.isSome_iff_ne_none.2 hSecret)] at hSource
      exact .inr ⟨hName, _, hSome, KdfParameters.inBounds_drawnFrom (by omega)⟩
  refine ⟨?_, ?_, hKdf, ?_, hLength.symm.trans_lt hLengths.section_lt⟩
  · rw [hWritten.cipherName_eq]
    cases cipherFor passphrase requested <;> decide
  · rw [hWritten.cipherName_eq]
    cases cipherFor passphrase requested <;> decide
  · rw [hWritten.publicBlob_eq]
    exact hLengths.publicBlob_lt

section Payload

variable {pair publicBlob source : Bytes} {passphrase comment : Option String}
  {requested : CipherKind}

/-- In the clear, a check number is drawn and then the section written. -/
theorem payload_of_none (hSecret : nonEmpty passphrase = none) (hSource : 4 ≤ source.length)
    (memory : Allocator) : payload memory pair publicBlob passphrase requested comment source =
      (do
        let plain ← Section.write memory (Field.wordOf (source.take 4)) pair (comment.getD "")
          CipherKind.none.profile.blockSize
        let b ← write memory CipherKind.none.profile none publicBlob plain.written.length
          plain.written
        .ok (b, source.drop 4)) := by
  have hWord := Random.word_eq_ok_iff.2 ⟨hSource, rfl, rfl⟩
  rw [payload, hSecret]
  show (Random.word >>= _) source = _
  simp only [StateExcept.bind_of_ok hWord, StateExcept.lift_bind, StateExcept.lift_eq]

/-- The key material that a passphrase gives with the salt drawn from a source. -/
theorem exists_material_drawnFrom {s : String} (hs : s ≠ "")
    (hSalt : KdfParameters.saltLength ≤ source.length) (requested : CipherKind) :
    ∃ material, (KdfParameters.drawnFrom source).derive (Bytes.ofString s)
        requested.forEncryption.profile.keyMaterialLength = .ok material ∧
      material.length = requested.forEncryption.profile.keyMaterialLength := by
  obtain ⟨hZero, hMax⟩ := keyMaterialLength_forEncryption requested
  have hBounds := KdfParameters.inBounds_drawnFrom hSalt
  exact KdfParameters.exists_derive (Bytes.ofString_eq_nil_iff.not.2 hs) hBounds.salt_ne
    hBounds.rounds_ne hZero hMax

/-- Under a passphrase a salt is drawn first and the check number from what is left; then the
section is written and sealed. -/
theorem payload_of_some {secret : Bytes} (hSecret : nonEmpty passphrase = some secret)
    (hSource : KdfParameters.saltLength + 4 ≤ source.length) (memory : Allocator) :
    payload memory pair publicBlob passphrase requested comment source =
      (do
        let profile := requested.forEncryption.profile
        let plain ← Section.write memory
          (Field.wordOf ((source.drop KdfParameters.saltLength).take 4)) pair (comment.getD "")
          profile.blockSize
        let material ← (KdfParameters.drawnFrom source).derive secret profile.keyMaterialLength
        let sealed ← profile.encrypt plain.written material
        let b ← write memory profile (some (.drawnFrom source)) publicBlob plain.written.length
          sealed
        .ok (b, source.drop (KdfParameters.saltLength + 4))) := by
  have hSalt : KdfParameters.saltLength ≤ source.length := by omega
  have hWord : 4 ≤ (source.drop KdfParameters.saltLength).length := by
    rw [List.length_drop]
    omega
  have hKdf := KdfParameters.generate_eq_ok_iff.2 ⟨hSalt, rfl, rfl⟩
  have hCheck := Random.word_eq_ok_iff.2 ⟨hWord, rfl, List.drop_drop.symm⟩
  rw [payload, hSecret]
  show (KdfParameters.generate >>= _) source = _
  simp only [StateExcept.bind_of_ok hKdf, StateExcept.bind_of_ok hCheck, StateExcept.lift_bind,
    StateExcept.lift_eq]

/-- **What `payload` writes**, as a header whose section opens to the plaintext.  With enough random
bytes and lengths that can be declared, only the allocator has a say in whether it is written. -/
theorem exists_payload (hSource : drawn passphrase ≤ source.length)
    (hLengths : Declarable pair publicBlob (comment.getD "")
      (cipherFor passphrase requested).profile.blockSize) :
    ∃ h, (∀ memory, payload memory pair publicBlob passphrase requested comment source =
        (do
          askForRoom memory pair publicBlob passphrase requested (comment.getD "") source
          .ok (.full h.payload, source.drop (drawn passphrase)))) ∧
      Written h pair publicBlob passphrase requested (comment.getD "") source := by
  have hBlob := hLengths.publicBlob_lt
  have hShort := hLengths.section_lt
  have hLength (check : UInt32) := Section.length_build check pair (comment.getD "")
    (cipherFor passphrase requested).profile.blockSize
  have hSection (memory : Allocator) (check : UInt32) := Section.write_of_lt hLengths.comment_lt
    memory check pair (cipherFor passphrase requested).profile.blockSize
  simp only [askForRoom]
  generalize Section.length pair.length (comment.getD "").utf8ByteSize
    (cipherFor passphrase requested).profile.blockSize = n at hShort hLength hSection
  cases hSecret : nonEmpty passphrase with
  | none =>
    have hDrawn := drawn_of_none hSecret
    have hCipher := cipherFor_of_none hSecret requested
    rw [hDrawn] at hSource
    rw [hCipher] at hLength hSection
    generalize hCheck : Field.wordOf (source.take 4) = check
    have hPlain := hLength check
    have hSealed : (Section.build check pair (comment.getD "")
      CipherKind.none.profile.blockSize).length = n + CipherKind.none.profile.tagLength := hPlain
    have hWrite := write_of_lt hBlob hShort hSealed
    refine ⟨headerOf CipherKind.none.profile none publicBlob n (Section.build check pair
      (comment.getD "") CipherKind.none.profile.blockSize), fun memory => ?_, ?_,
      .inl ⟨rfl, rfl, hSecret⟩, rfl, ?_, ?_⟩
    · rw [payload_of_none hSecret hSource, hCheck, hSection, hDrawn, hCipher,
        kdfFor_of_none hSecret]
      simp only [bind_assoc, Result.ok_bind, Buffer.written_full, hPlain, hWrite]
    · rw [hCipher]
      rfl
    · rw [hCipher]
      exact length_tag hPlain
    · rw [hCipher, hDrawn, Nat.sub_self, List.drop_zero, hCheck]
      exact (List.take_of_length_le hPlain.le).symm
  | some secret =>
    obtain ⟨s, hs, hNe, rfl⟩ := nonEmpty_eq_some_iff.1 hSecret
    have hDrawn := drawn_of_some hSecret
    have hCipher := cipherFor_of_some hSecret requested
    rw [hDrawn] at hSource
    rw [hCipher] at hLength hSection
    generalize hCheck : Field.wordOf ((source.drop KdfParameters.saltLength).take 4) = check
    have hPlain := hLength check
    have hSalt : KdfParameters.saltLength ≤ source.length := by omega
    obtain ⟨material, hMaterial, hMaterialLength⟩ := exists_material_drawnFrom hNe hSalt requested
    -- A section whose length is declared is shorter than the keystream.
    obtain ⟨sealed, hSealed, hSealedLength, hOpen⟩ := CipherProfile.exists_encrypt hMaterialLength
      (CipherKind.lasts_of_lt _ (hPlain.trans_lt hShort))
    rw [hPlain] at hSealedLength
    have hWrite := write_of_lt hBlob hShort hSealedLength
    refine ⟨headerOf requested.forEncryption.profile (some (.drawnFrom source)) publicBlob n
      sealed, fun memory => ?_, ?_,
      .inr ⟨rfl, rfl, by rw [hSecret]; exact Option.some_ne_none _⟩, rfl, ?_, ?_⟩
    · rw [payload_of_some hSecret hSource, hCheck, hDrawn, hCipher, kdfFor_of_some hSecret]
      simp only [hSection, bind_assoc, Result.ok_bind, Buffer.written_full, hPlain, hMaterial,
        hSealed, hWrite]
    · rw [hCipher]
      rfl
    · rw [hCipher]
      exact length_tag hSealedLength
    · rw [hCipher, hDrawn, Nat.add_sub_cancel, hCheck, Opens,
        if_pos (forEncryption_isEncrypted requested)]
      refine ⟨.drawnFrom source, s, material, rfl, hs, hNe, hMaterial, ?_⟩
      rw [headerOf, List.take_append_drop]
      exact hOpen

/-- Writing succeeds only with enough random bytes and with lengths that can be declared. -/
theorem bounds_of_payload {memory : Allocator} {rest : Bytes} {b : Buffer UInt8}
    (h : payload memory pair publicBlob passphrase requested comment source = .ok (b, rest)) :
    drawn passphrase ≤ source.length ∧ Declarable pair publicBlob (comment.getD "")
      (cipherFor passphrase requested).profile.blockSize := by
  cases hSecret : nonEmpty passphrase with
  | none =>
    have hDrawn := drawn_of_none hSecret
    have hCipher := cipherFor_of_none hSecret requested
    rw [payload, hSecret] at h
    rw [hDrawn, hCipher]
    obtain ⟨check, t, hCheck, h⟩ := StateExcept.bind_eq_ok_iff.1 h
    obtain ⟨plain, t', hPlain, h⟩ := StateExcept.bind_eq_ok_iff.1 h
    obtain ⟨hPlain, -⟩ := StateExcept.lift_eq_ok_iff.1 hPlain
    obtain ⟨hWrite, -⟩ := StateExcept.lift_eq_ok_iff.1 h
    exact ⟨(Random.word_eq_ok_iff.1 hCheck).1, declarable_of_write hPlain hWrite⟩
  | some secret =>
    have hDrawn := drawn_of_some hSecret
    have hCipher := cipherFor_of_some hSecret requested
    rw [payload, hSecret] at h
    rw [hDrawn, hCipher]
    obtain ⟨kdf, t, hKdf, h⟩ := StateExcept.bind_eq_ok_iff.1 h
    obtain ⟨check, t', hCheck, h⟩ := StateExcept.bind_eq_ok_iff.1 h
    obtain ⟨plain, t'', hPlain, h⟩ := StateExcept.bind_eq_ok_iff.1 h
    obtain ⟨material, t₄, -, h⟩ := StateExcept.bind_eq_ok_iff.1 h
    obtain ⟨sealed, t₅, -, h⟩ := StateExcept.bind_eq_ok_iff.1 h
    obtain ⟨hPlain, -⟩ := StateExcept.lift_eq_ok_iff.1 hPlain
    obtain ⟨hWrite, -⟩ := StateExcept.lift_eq_ok_iff.1 h
    obtain ⟨hSalt, -, rfl⟩ := KdfParameters.generate_eq_ok_iff.1 hKdf
    obtain ⟨hWord, -⟩ := Random.word_eq_ok_iff.1 hCheck
    rw [List.length_drop] at hWord
    exact ⟨by omega, declarable_of_write hPlain hWrite⟩

end Payload

/-- The text that is written, as the armor of a header. -/
theorem exists_encodeWith {pair publicBlob source : Bytes} {passphrase comment : Option String}
    {requested : CipherKind} (hSource : drawn passphrase ≤ source.length)
    (hLengths : Declarable pair publicBlob (comment.getD "")
      (cipherFor passphrase requested).profile.blockSize) :
    ∃ h, (∀ memory, encodeWith memory pair publicBlob passphrase requested comment source =
        (do
          askForRoom memory pair publicBlob passphrase requested (comment.getD "") source
          .ok (Armor.wrap h.payload, source.drop (drawn passphrase)))) ∧
      Written h pair publicBlob passphrase requested (comment.getD "") source := by
  obtain ⟨h, hPayload, hWritten⟩ := exists_payload hSource hLengths
  refine ⟨h, fun memory => ?_, hWritten⟩
  have hOwn := hPayload memory
  cases hRoom : askForRoom memory pair publicBlob passphrase requested (comment.getD "") source with
  | error f =>
    rw [hRoom, Result.error_bind] at hOwn
    exact StateExcept.bind_of_error hOwn
  | ok _ =>
    rw [hRoom, Result.ok_bind] at hOwn
    rw [encodeWith, StateExcept.bind_of_ok hOwn, Buffer.written_full, Result.ok_bind]
    rfl

/-- What is written, if anything is, and what is left of the source. -/
theorem exists_written_of_encode {pair publicBlob : Bytes} {passphrase : Option String}
    {requested : CipherKind} {comment : Option String} {source rest : Bytes} {text : String}
    (h : encode pair publicBlob passphrase requested comment source = .ok (text, rest)) :
    ∃ header, ContainerHeader.parse text = .ok header ∧
      Written header pair publicBlob passphrase requested (comment.getD "") source ∧
      drawn passphrase ≤ source.length ∧ rest = source.drop (drawn passphrase) := by
  obtain ⟨b, t, hPayload, -⟩ := StateExcept.bind_eq_ok_iff.1 h
  obtain ⟨hSource, hLengths⟩ := bounds_of_payload hPayload
  obtain ⟨header, hOwn, hWritten⟩ := exists_encodeWith hSource hLengths
  cases (hOwn .unlimited).symm.trans h
  exact ⟨header, ContainerHeader.parse_wrap (hWritten.valid hSource hLengths), hWritten, hSource,
    rfl⟩

theorem exists_encode {pair : KeyPair} (hPair : pair.Valid) (passphrase : Option String)
    (requested : CipherKind) (comment : Option String) {source : Bytes}
    (hSource : drawn passphrase ≤ source.length)
    (hSection : Section.length pair.blob.length (comment.getD "").utf8ByteSize
      (cipherFor passphrase requested).profile.blockSize < 2 ^ 32) :
    ∃ text, encode pair.blob pair.publicKey.blob passphrase requested comment source =
        .ok (text, source.drop (drawn passphrase)) ∧
      decode text passphrase = .ok ⟨cipherFor passphrase requested, pair, comment.getD "",
        pair.publicKey.blob⟩ := by
  have hLengths : Declarable pair.blob pair.publicKey.blob (comment.getD "")
      (cipherFor passphrase requested).profile.blockSize :=
    ⟨hPair.publicKey.length_blob_lt, hSection⟩
  obtain ⟨h, hEncode, hWritten⟩ := exists_encodeWith hSource hLengths
  have hValid := hWritten.valid hSource hLengths
  exact ⟨Armor.wrap h.payload, hEncode .unlimited,
    decode_of_parse (ContainerHeader.parse_wrap hValid) hWritten.cipherName_eq
      hWritten.tag_length hWritten.opens hWritten.publicBlob_eq hPair hLengths.comment_lt⟩

/-- **A key that was read is written into a container and read back from it**, under every
cipher, with any comment, and with or without a passphrase. -/
theorem decode_encode_keyPair {i j : KeyInput} {pair : KeyPair}
    (hRead : KeyReader.keyPair i = .ok (pair, j)) (passphrase : Option String)
    (requested : CipherKind) (comment : Option String)
    {source : Bytes} (hSource : drawn passphrase ≤ source.length)
    (hSection : Section.length pair.blob.length (comment.getD "").utf8ByteSize
      (cipherFor passphrase requested).profile.blockSize < 2 ^ 32) :
    ∃ text, encode pair.blob pair.publicKey.blob passphrase requested comment source =
        .ok (text, source.drop (drawn passphrase)) ∧
      decode text passphrase = .ok ⟨cipherFor passphrase requested, pair, comment.getD "",
        pair.publicKey.blob⟩ :=
  exists_encode (KeyReader.keyPair_eq_ok hRead) passphrase requested comment hSource hSection

/-- A DSA key under a passphrase. -/
theorem decode_encode_dsa :
    ∃ text, encode (KeyPair.dsa ⟨[1], [2], [3], [4], [5]⟩).blob
        (KeyPair.dsa ⟨[1], [2], [3], [4], [5]⟩).publicKey.blob (some "p") .chacha20Poly1305
        (some "c") (Bytes.zeros 20) = .ok (text, []) ∧
      decode text (some "p") = .ok ⟨.chacha20Poly1305, .dsa ⟨[1], [2], [3], [4], [5]⟩, "c",
        (KeyPair.dsa ⟨[1], [2], [3], [4], [5]⟩).publicKey.blob⟩ := by
  have hInteger (x : UInt8) (h : KeyReader.isCanonical [x] = true) : KeyReader.IsInteger [x] :=
    ⟨h, by rw [List.length_singleton]; decide⟩
  have hPair : (KeyPair.dsa ⟨[1], [2], [3], [4], [5]⟩).Valid :=
    ⟨⟨hInteger 1 rfl, hInteger 2 rfl, hInteger 3 rfl, hInteger 4 rfl⟩, hInteger 5 rfl⟩
  have hRead := KeyReader.run_of_yields (KeyReader.yields_keyPair hPair) []
  have hName : (Algorithm.dsa.name).utf8ByteSize = 7 := by decide
  have hLength : (KeyPair.dsa ⟨[1], [2], [3], [4], [5]⟩).blob.length = 36 := by
    simp only [KeyPair.blob, KeyPair.fields, List.length_append, Field.length_putString,
      Field.length_putText, Field.stringLength, KeyPair.algorithm, KeyPair.publicKey,
      PublicKey.algorithm, hName, List.length_singleton]
  have hSecret : nonEmpty (some "p") = some (Bytes.ofString "p") :=
    nonEmpty_eq_some_iff.2 ⟨"p", rfl, by decide, rfl⟩
  have hCipher : cipherFor (some "p") .chacha20Poly1305 = .chacha20Poly1305 := by
    rw [cipherFor, hSecret]
    rfl
  have hDrawn : drawn (some "p") = 20 := by
    rw [drawn, hSecret]
    rfl
  have hSource : drawn (some "p") ≤ (Bytes.zeros 20).length := by rw [hDrawn]; decide
  have h := decode_encode_keyPair hRead (some "p") .chacha20Poly1305 (some "c") hSource
    (by rw [hLength, hCipher]; decide)
  rwa [hDrawn, hCipher] at h

end Container

end SshKeys
