import SshKeys.Container.General
import SshKeys.Proofs.Container
import SshKeys.Proofs.Pem

/-!
# What the general reader sees

* `GeneralContainer.parse_wrap`: **an armored container under a cipher without a tag
  is taken apart into its fields**, and the parameters of the key derivation are
  handed on as they are written.
* `KeyReader.steps_of_container`: all that happens when a container is taken apart,
  and `KeyReader.sealed_of_container`: one under a cipher consists of these fields,
  with or without a tag.
* `SectionCipher.IsKind`: the ciphers that containers are also written under.
* `GeneralContainer.privateKey_eq_ok`: where a key comes from.
-/

namespace SshKeys

namespace KeyReader

open StateExcept (bind_of_ok bind_eq_ok_iff refuse_eq_ok_iff)
open SshKeys.Field (putString putText)

/-! ## Fields of an armored text -/

/-- What is left of an armored text. -/
def armored (b : Bytes) : KeyInput :=
  { source := .armor false, bytes := b }

/-- A field is passed as long as something follows it. -/
theorem Yields.bind_armored {α β : Type} {r : KeyReader α} {f : α → KeyReader β} {a : α}
    {c rest : Bytes} (h : Yields r c a) (hRest : rest ≠ []) :
    (r >>= f) (armored (c ++ rest)) = f a (armored rest) := by
  have hRun := h (armored (c ++ rest)) rest (.inr hRest) rfl fun l hl => nomatch hl
  rw [bind_of_ok hRun, KeyInput.skip, armored, List.drop_left]
  rfl

/-- The last field is passed if it is not empty. -/
theorem field_armored {c : Bytes} (hNe : c ≠ []) (hMax : c.length ≤ maxLength) :
    field (armored (putString c)) = .ok (c, armored []) := by
  have hCount : count (armored (putString c)) = .ok (c.length, armored c) := by
    have hRun := yields_count hMax (armored (putString c)) c (.inr hNe) rfl fun l hl => nomatch hl
    rw [hRun, KeyInput.skip, armored, Bytes.length_be32, putString]
    exact congrArg (fun b => Except.ok (c.length, armored b)) (List.drop_left' rfl)
  have hTake : take c.length { armored c with limits := c.length :: (armored c).limits } =
      .ok (c, { armored [] with limits := [0] }) := by
    refine take_eq_ok_iff.2 ⟨?_, le_rfl, ?_, ?_, ?_⟩
    · intro l hl
      rw [List.mem_singleton.1 hl]
    · simp [KeyInput.isFinished, armored, hNe]
    · exact List.take_length.symm
    · simp [KeyInput.skip, armored]
  exact nested_eq_ok_iff.2 ⟨c.length, armored c, { armored [] with limits := [0] }, hCount,
    bind_eq_ok_iff.2 ⟨c.length, _, rfl, hTake⟩, rfl⟩

theorem yields_word (w : UInt32) : Yields word (Bytes.be32 w) w.toNat := by
  have hStep := (yields_take (Bytes.length_be32 w)).map Bytes.toNat
  rw [Bytes.toNat_be32] at hStep
  exact hStep

/-- Parameters of bcrypt are taken over whatever they are, and whatever is declared beyond them. -/
theorem yields_kdfOptions_of_le {kdf : KdfParameters} {n : Nat}
    (h : (ContainerHeader.putKdfOptions kdf).length ≤ n) (hMax : n ≤ maxLength) :
    Yields kdfOptions (putText KdfParameters.bcryptName ++ (Bytes.be32 (UInt32.ofNat n) ++
      ContainerHeader.putKdfOptions kdf)) (some kdf) := by
  have hSalt : kdf.salt.length ≤ maxLength := by
    rw [ContainerHeader.putKdfOptions, List.length_append, Field.length_putString,
      Field.stringLength] at h
    omega
  have hFields : Yields (do
      let salt ← field
      let rounds ← word
      pure (some ⟨salt, UInt32.ofNat rounds⟩)) (ContainerHeader.putKdfOptions kdf) (some kdf) := by
    have hRounds := (yields_word kdf.rounds).map
      fun rounds => some (⟨kdf.salt, UInt32.ofNat rounds⟩ : KdfParameters)
    rw [UInt32.ofNat_toNat] at hRounds
    exact (yields_field hSalt).bind hRounds
  have hName : Yields (name fun s => if s = KdfParameters.noneName then some false
      else if s = KdfParameters.bcryptName then some true else none)
      (putText KdfParameters.bcryptName) true := yields_name (by decide) (by decide)
  exact hName.bind (hFields.nested h hMax)

theorem yields_kdfOptions {kdf : KdfParameters}
    (h : (ContainerHeader.putKdfOptions kdf).length ≤ maxLength) :
    Yields kdfOptions (putText KdfParameters.bcryptName ++
      putString (ContainerHeader.putKdfOptions kdf)) (some kdf) :=
  yields_kdfOptions_of_le le_rfl h

/-! ## The private section -/

variable {i j : KeyInput}

/-- Of a private section that is read from memory, each byte is accounted for. -/
theorem exists_holds_of_privateSection {key : PublicKey} {block : Nat} {content : Bytes}
    {k : PrivateKey} (h : privateSection key block (.ofBytes content) = .ok (k, j)) :
    content.length % block = 0 ∧ k.publicKey = key ∧
      ∃ check kb n, Section.Holds content block k.pair k.comment check kb n := by
  obtain ⟨_, _, hLength, h⟩ := bind_eq_ok_iff.1 h
  cases hLength
  obtain ⟨hBlocks, h⟩ := refuse_eq_ok_iff.1 h
  obtain ⟨first, k₁, hFirst, h⟩ := bind_eq_ok_iff.1 h
  obtain ⟨check, rfl, hBytes₁, hSkip₁⟩ := bytes_of_word hFirst
  obtain ⟨t₁, rfl⟩ : ∃ t, k₁ = .ofBytes t := ⟨_, KeyInput.ofBytes_of_skip hSkip₁⟩
  obtain ⟨second, k₂, hSecond, h⟩ := bind_eq_ok_iff.1 h
  obtain ⟨check', rfl, hBytes₂, hSkip₂⟩ := bytes_of_word hSecond
  obtain ⟨t₂, rfl⟩ : ∃ t, k₂ = .ofBytes t := ⟨_, KeyInput.ofBytes_of_skip hSkip₂⟩
  obtain ⟨hCheck, h⟩ := refuse_eq_ok_iff.1 h
  obtain ⟨pair, k₃, hPair, h⟩ := bind_eq_ok_iff.1 h
  obtain ⟨kb, hBytes₃, hOwn, hMemory⟩ := bytes_of_keyPair hPair
  obtain ⟨t₃, rfl⟩ : ∃ t, k₃ = .ofBytes t := ⟨_, hMemory⟩
  obtain ⟨hKey, h⟩ := refuse_eq_ok_iff.1 h
  obtain ⟨comment, k₄, hComment, h⟩ := bind_eq_ok_iff.1 h
  obtain ⟨hBytes₄, hSkip₄⟩ := bytes_of_text hComment
  obtain ⟨t₄, rfl⟩ : ∃ t, k₄ = .ofBytes t := ⟨_, KeyInput.ofBytes_of_skip hSkip₄⟩
  obtain ⟨_, _, hRest, h⟩ := bind_eq_ok_iff.1 h
  cases hRest
  obtain ⟨hShort, h⟩ := refuse_eq_ok_iff.1 h
  have hMax : maxLength < 2 ^ 32 := by decide
  have hEnd : t₄ = Section.padding t₄.length ∧
      k = ⟨pair, comment, some (UInt32.ofNat check.toNat)⟩ := by
    simp only at h
    split at h
    · obtain ⟨b, k₅, hTake, h⟩ := bind_eq_ok_iff.1 h
      obtain ⟨hPadding, h⟩ := refuse_eq_ok_iff.1 h
      cases h
      obtain ⟨-, -, -, hb, -⟩ := take_eq_ok_iff.1 hTake
      rw [not_not.1 hPadding] at hb
      exact ⟨(hb.trans List.take_length).symm, rfl⟩
    · next hNone =>
      cases h
      have hNil : t₄ = [] := List.eq_nil_of_length_eq_zero (not_not.1 hNone)
      rw [hNil]
      exact ⟨rfl, rfl⟩
  obtain ⟨hPadding, rfl⟩ := hEnd
  refine ⟨not_not.1 hBlocks, not_not.1 hKey, check, kb, t₄.length, ?_, hOwn,
    (text_eq_ok hComment).trans_lt hMax, not_le.1 hShort⟩
  have hSame : check = check' := UInt32.toNat_inj.1 (not_not.1 hCheck)
  have h₁ : content = Bytes.be32 check ++ t₁ := hBytes₁
  have h₂ : t₁ = Bytes.be32 check' ++ t₂ := hBytes₂
  have h₃ : t₂ = kb ++ t₃ := hBytes₃
  have h₄ : t₃ = putText comment ++ t₄ := hBytes₄
  change content = Section.content check kb comment ++ Section.padding t₄.length
  rw [← hPadding, h₁, h₂, h₃, h₄, ← hSame, Section.content]
  simp only [List.append_assoc]

theorem privateSection_of_holds {block n : Nat} {content kb : Bytes} {k : PrivateKey}
    {check : UInt32} (h : Section.Holds content block k.pair k.comment check kb n)
    (hBlocks : content.length % block = 0) (hComment : k.comment.utf8ByteSize ≤ maxLength)
    (hCheck : k.check = some check) :
    privateSection k.publicKey block (.ofBytes content) = .ok (k, .ofBytes []) := by
  obtain ⟨pair, comment, _⟩ := k
  cases hCheck
  have hSplit : content = Bytes.be32 check ++ (Bytes.be32 check ++ (kb ++
      (putText comment ++ Section.padding n))) := by
    rw [h.plain_eq, Section.content]
    simp only [List.append_assoc]
  obtain ⟨i, hRun, hEnd⟩ := KeyPair.read_eq_ok h.pair_eq
  have hPair : Yields keyPair kb pair := stable_keyPair.yields hRun hEnd
  refine bind_eq_ok_iff.2 ⟨content.length, .ofBytes content, rfl, ?_⟩
  refine refuse_eq_ok_iff.2 ⟨not_not.2 hBlocks, ?_⟩
  rw [hSplit]
  refine bind_eq_ok_iff.2 ⟨_, _, run_of_yields (yields_word check) _, ?_⟩
  refine bind_eq_ok_iff.2 ⟨_, _, run_of_yields (yields_word check) _, ?_⟩
  refine refuse_eq_ok_iff.2 ⟨not_not.2 rfl, ?_⟩
  refine bind_eq_ok_iff.2 ⟨_, _, run_of_yields hPair _, ?_⟩
  refine refuse_eq_ok_iff.2 ⟨not_not.2 rfl, ?_⟩
  refine bind_eq_ok_iff.2 ⟨_, _, run_of_yields (yields_text hComment) _, ?_⟩
  refine bind_eq_ok_iff.2 ⟨(Section.padding n).length, _, rfl, ?_⟩
  rw [Section.length_padding]
  refine refuse_eq_ok_iff.2 ⟨not_le.2 h.padding_lt, ?_⟩
  have hPure : (⟨pair, comment, some (UInt32.ofNat check.toNat)⟩ : PrivateKey) =
      ⟨pair, comment, some check⟩ := by rw [UInt32.ofNat_toNat]
  by_cases hZero : n = 0
  · subst hZero
    exact congrArg (fun k => Except.ok (k, KeyInput.ofBytes [])) hPure
  · refine (congrFun (if_pos hZero) _).trans ?_
    have hTake := run_of_yields (yields_take (Section.length_padding n)) []
    rw [List.append_nil] at hTake
    refine bind_eq_ok_iff.2 ⟨_, _, hTake, ?_⟩
    refine refuse_eq_ok_iff.2 ⟨not_not.2 rfl, ?_⟩
    exact congrArg (fun k => Except.ok (k, KeyInput.ofBytes [])) hPure

end KeyReader

namespace SectionCipher

theorem name_eq_of_ofName? {name : String} {c : SectionCipher} (h : ofName? name = some (some c)) :
    c ∈ all ∧ c.name = name := by
  rw [ofName?] at h
  split at h
  · cases h
  · obtain ⟨c', hFind, hEq⟩ := Option.map_eq_some_iff.1 h
    cases hEq
    have hName := List.find?_some hFind
    exact ⟨List.mem_of_find?_eq_some hFind, of_decide_eq_true hName⟩

theorem name_le {name : String} {c : SectionCipher} (h : ofName? name = some (some c)) :
    name.utf8ByteSize ≤ KeyReader.maxName := by
  have hAll : ∀ c ∈ all, c.name.utf8ByteSize ≤ KeyReader.maxName := by decide
  obtain ⟨hMem, rfl⟩ := name_eq_of_ofName? h
  exact hAll c hMem

theorem name_ne {name : String} {c : SectionCipher} (h : ofName? name = some (some c)) :
    name ≠ "" := by
  have hAll : ∀ c ∈ all, c.name ≠ "" := by decide
  obtain ⟨hMem, rfl⟩ := name_eq_of_ofName? h
  exact hAll c hMem

/-- The cipher of the general reader has the name and the sizes of one that is also written. -/
structure IsKind (c : SectionCipher) (k : CipherKind) : Prop where
  cipher_eq : ofName? k.name = some (some c)
  blockSize_eq : c.blockSize = k.profile.blockSize
  tagLength_eq : c.tagLength = k.profile.tagLength
  material_eq : c.keyLength + c.ivLength = k.profile.keyMaterialLength
  /-- Both open the same ciphertexts to the same text. -/
  decrypt_iff : ∀ {material ciphertext tag content : Bytes},
    material.length = k.profile.keyMaterialLength → tag.length = k.profile.tagLength →
      (c.decrypt? (material.take c.keyLength) (material.drop c.keyLength) ciphertext tag =
          some content ↔
        k.profile.decrypt (ciphertext ++ tag) material = .ok content)

theorem aesCtr_decrypt_iff {material ciphertext tag content : Bytes}
    (hMaterial : material.length = CipherKind.aes256Ctr.profile.keyMaterialLength)
    (hTag : tag.length = CipherKind.aes256Ctr.profile.tagLength) :
    decrypt? ⟨"aes256-ctr", .ctr, 32, 16, 16, 0⟩ (material.take 32) (material.drop 32) ciphertext
        tag = some content ↔
      CipherKind.aes256Ctr.profile.decrypt (ciphertext ++ tag) material = .ok content := by
  have hNil : tag = [] := List.eq_nil_of_length_eq_zero hTag
  rw [hNil, List.append_nil, CipherProfile.decrypt_aes hMaterial, Except.ok.injEq]
  exact Option.some_inj

theorem chaChaPoly_decrypt_iff {material ciphertext tag content : Bytes}
    (hMaterial : material.length = CipherKind.chacha20Poly1305.profile.keyMaterialLength)
    (hTag : tag.length = CipherKind.chacha20Poly1305.profile.tagLength) :
    decrypt? ⟨"chacha20-poly1305@openssh.com", .chacha, 64, 0, 8, 16⟩ (material.take 64)
        (material.drop 64) ciphertext tag = some content ↔
      CipherKind.chacha20Poly1305.profile.decrypt (ciphertext ++ tag) material = .ok content := by
  have hTake : material.take 64 = material := List.take_of_length_le hMaterial.le
  rw [CipherProfile.decrypt_chacha hMaterial, ChaChaPoly.decrypt_append hMaterial hTag, hTake,
    decrypt?]
  dsimp only
  split
  · cases ChaChaPoly.apply ciphertext material with
    | error f => exact iff_of_false (fun h => nomatch h) fun h => nomatch h
    | ok plain => exact Option.some_inj.trans (Except.ok.injEq ..).to_iff.symm
  · exact iff_of_false (fun h => nomatch h) fun h => nomatch h

theorem exists_isKind {k : CipherKind} (h : k ≠ .none) : ∃ c, IsKind c k := by
  cases k with
  | none => exact absurd rfl h
  | aes256Ctr => exact ⟨_, by decide, rfl, rfl, rfl, aesCtr_decrypt_iff⟩
  | chacha20Poly1305 => exact ⟨_, by decide, rfl, rfl, rfl, chaChaPoly_decrypt_iff⟩

end SectionCipher

namespace KeyReader

open StateExcept (bind_eq_ok_iff refuse_eq_ok_iff)
open SshKeys.Field (putString putText)

variable {i j : KeyInput}

/-! ## The fields of a container -/

theorem stable_kdfOptions {inside : Bool} : Stable inside kdfOptions := by
  refine (stable_name _).bind fun isBcrypt => ?_
  cases isBcrypt with
  | true => exact (stable_field.bind fun _ => stable_word.bind fun _ => stable_pure _).nested
  | false => exact stable_count.bind fun _ => stable_accept (stable_pure _)

theorem eq_nil_of_finish {u : Unit} (h : finish i = .ok (u, j)) (hLimits : i.limits = []) :
    i.bytes = [] ∧ i.unreadable = 0 := by
  obtain ⟨n, k, hRemaining, h⟩ := bind_eq_ok_iff.1 h
  cases hRemaining
  obtain ⟨hZero, -⟩ := refuse_eq_ok_iff.1 h
  rw [KeyInput.remaining, hLimits, List.headD_nil, not_not, Nat.add_eq_zero_iff] at hZero
  exact ⟨List.eq_nil_of_length_eq_zero hZero.1, hZero.2⟩

/-- What is read behind the public key, in the clear or under a cipher. -/
inductive SectionRead (key : PublicKey) (kdf : Option KdfParameters) (i j : KeyInput) :
    Option SectionCipher → GeneralContainer → Prop
  | plain {k : PrivateKey} {i₁ : KeyInput} (hKdf : kdf = none)
      (hSection : nested (privateSection key 8) i = .ok (k, i₁))
      (hFinish : finish i₁ = .ok ((), j)) : SectionRead key kdf i j none (.plain k)
  | sealed {c : SectionCipher} {ciphertext tag : Bytes} {i₁ i₂ : KeyInput}
      (hField : field i = .ok (ciphertext, i₁)) (hBlocks : ciphertext.length % c.blockSize = 0)
      (hTag : c.tagLength = 0 ∧ tag = [] ∧ i₂ = i₁ ∨
        c.tagLength ≠ 0 ∧ take c.tagLength i₁ = .ok (tag, i₂))
      (hFinish : finish i₂ = .ok ((), j)) :
      SectionRead key kdf i j (some c) (.sealed c kdf key ciphertext tag)

/-- **All that happens when a container is taken apart.** -/
theorem steps_of_container {g : GeneralContainer} (h : container i = .ok (g, j)) :
    ∃ i₁ cipher i₂ kdf i₃ i₄ key i₅,
      take ContainerHeader.magic.length i = .ok (ContainerHeader.magic, i₁) ∧
      name SectionCipher.ofName? i₁ = .ok (cipher, i₂) ∧ kdfOptions i₂ = .ok (kdf, i₃) ∧
      count i₃ = .ok (1, i₄) ∧ nested publicKey i₄ = .ok (key, i₅) ∧
      SectionRead key kdf i₅ j cipher g := by
  obtain ⟨m, i₁, hMagic, h⟩ := bind_eq_ok_iff.1 h
  obtain ⟨hOwn, h⟩ := refuse_eq_ok_iff.1 h
  obtain ⟨cipher, i₂, hName, h⟩ := bind_eq_ok_iff.1 h
  obtain ⟨kdf, i₃, hKdf, h⟩ := bind_eq_ok_iff.1 h
  obtain ⟨n, i₄, hCount, h⟩ := bind_eq_ok_iff.1 h
  obtain ⟨hOne, h⟩ := refuse_eq_ok_iff.1 h
  obtain ⟨key, i₅, hKey, h⟩ := bind_eq_ok_iff.1 h
  rw [not_not.1 hOwn] at hMagic
  rw [not_not.1 hOne] at hCount
  refine ⟨i₁, cipher, i₂, kdf, i₃, i₄, key, i₅, hMagic, hName, hKdf, hCount, hKey, ?_⟩
  cases cipher with
  | none =>
    obtain ⟨hNone, h⟩ := refuse_eq_ok_iff.1 h
    obtain ⟨k, i₆, hSection, h⟩ := bind_eq_ok_iff.1 h
    obtain ⟨_, i₇, hFinish, hPure⟩ := bind_eq_ok_iff.1 h
    cases hPure
    exact .plain (Option.not_isSome_iff_eq_none.1 hNone) hSection hFinish
  | some c =>
    obtain ⟨ciphertext, i₆, hField, h⟩ := bind_eq_ok_iff.1 h
    obtain ⟨hBlocks, h⟩ := refuse_eq_ok_iff.1 h
    simp only at h
    split at h
    · next hNone =>
      obtain ⟨tag, i₇, hTag, h⟩ := bind_eq_ok_iff.1 h
      obtain ⟨_, i₈, hFinish, hPure⟩ := bind_eq_ok_iff.1 h
      cases hTag
      cases hPure
      exact .sealed hField (not_not.1 hBlocks) (.inl ⟨hNone, rfl, rfl⟩) hFinish
    · next hSome =>
      obtain ⟨tag, i₇, hTag, h⟩ := bind_eq_ok_iff.1 h
      obtain ⟨_, i₈, hFinish, hPure⟩ := bind_eq_ok_iff.1 h
      cases hPure
      exact .sealed hField (not_not.1 hBlocks) (.inr ⟨hSome, hTag⟩) hFinish

/-- Of bytes that begin as a container does, the name and the key derivation are what they are
written as, and the other steps are taken behind them. -/
theorem steps_of_fields {name : String} {c : SectionCipher} {kdf : Option KdfParameters}
    {o rest : Bytes} {g : GeneralContainer}
    (hCipher : SectionCipher.ofName? name = some (some c)) (hOptions : Yields kdfOptions o kdf)
    (hBytes : i.bytes = ContainerHeader.magic ++ (putText name ++ (o ++ rest)))
    (hLimits : i.limits = []) (h : container i = .ok (g, j)) :
    ∃ i₄ key i₅, count { i with bytes := rest } = .ok (1, i₄) ∧
      nested publicKey i₄ = .ok (key, i₅) ∧ SectionRead key kdf i₅ j (some c) g := by
  obtain ⟨i₁, cipher, i₂, kdf', i₃, i₄, key, i₅, hMagic, hName, hKdf, hCount, hKey, hSection⟩ :=
    steps_of_container h
  obtain ⟨-, rfl⟩ := (yields_take rfl).step (stable_take _) hMagic hBytes hLimits
  obtain ⟨rfl, rfl⟩ := (yields_name hCipher (SectionCipher.name_le hCipher)).step (stable_name _)
    hName rfl hLimits
  obtain ⟨rfl, rfl⟩ := hOptions.step stable_kdfOptions hKdf rfl hLimits
  exact ⟨i₄, key, i₅, hCount, hKey, hSection⟩

/-- If the strings up to the public key hold just what is read of them, the private section and
the tag are all that stands behind them. -/
theorem sealed_of_container {name : String} {c : SectionCipher} {kdf : KdfParameters}
    {blob rest : Bytes} {key : PublicKey} {g : GeneralContainer}
    (hCipher : SectionCipher.ofName? name = some (some c))
    (hOptions : (ContainerHeader.putKdfOptions kdf).length ≤ maxLength)
    (hBlob : blob.length < 2 ^ 32) (hKey : PublicKey.read blob = .ok (key, []))
    (hBytes : i.bytes = ContainerHeader.magic ++ (putText name ++ ((putText KdfParameters.bcryptName
      ++ putString (ContainerHeader.putKdfOptions kdf)) ++ (Bytes.be32 1 ++ (putString blob ++
        rest)))))
    (hLimits : i.limits = []) (h : container i = .ok (g, j)) :
    ∃ ciphertext tag, g = .sealed c (some kdf) key ciphertext tag ∧
      rest = putString ciphertext ++ tag ∧ ciphertext.length ≤ maxLength ∧
      ciphertext.length % c.blockSize = 0 ∧ tag.length = c.tagLength ∧ i.unreadable = 0 := by
  obtain ⟨i₄, key', i₅, hCount, hPublic, hSection⟩ :=
    steps_of_fields hCipher (yields_kdfOptions hOptions) hBytes hLimits h
  obtain ⟨-, rfl⟩ := (yields_count (n := 1) (by decide)).step stable_count hCount rfl hLimits
  have hMax := length_le_of_nested hPublic rfl hBlob
  obtain ⟨own, hRun, hEnd⟩ := PublicKey.read_eq_ok hKey
  have hYields : Yields publicKey blob key := stable_publicKey.yields hRun hEnd
  obtain ⟨rfl, rfl⟩ := (hYields.fills.nested hMax).step stable_publicKey.nested hPublic rfl hLimits
  cases hSection with
  | @sealed c ciphertext tag i₆ i₇ hField hBlocks hTag hFinish =>
    obtain ⟨hFieldBytes, hLong, hSkip⟩ := bytes_of_field hField
    have hOpen : i₆.limits = [] := by
      rw [hSkip, KeyInput.skip]
      exact congrArg (List.map _) hLimits
    have hKept : i₆.unreadable = i.unreadable := by rw [hSkip]; rfl
    replace hFieldBytes : rest = putString ciphertext ++ i₆.bytes := hFieldBytes
    rcases hTag with ⟨hNone, rfl, rfl⟩ | ⟨-, hTag⟩
    · obtain ⟨hNil, hUnreadable⟩ := eq_nil_of_finish hFinish hOpen
      exact ⟨ciphertext, [], rfl, by rw [hFieldBytes, hNil], hLong, hBlocks, hNone.symm,
        hKept ▸ hUnreadable⟩
    · obtain ⟨hTagBytes, hLength, rfl⟩ := bytes_of_take hTag
      obtain ⟨hNil, hUnreadable⟩ := eq_nil_of_finish hFinish (by rw [KeyInput.skip, hOpen]; rfl)
      exact ⟨ciphertext, tag, rfl, by rw [hFieldBytes, hTagBytes, hNil, List.append_nil],
        hLong, hBlocks, hLength, hKept ▸ hUnreadable⟩

end KeyReader

theorem KdfParameters.InBounds.options_le {kdf : KdfParameters} (h : kdf.InBounds) :
    (ContainerHeader.putKdfOptions kdf).length ≤ KeyReader.maxLength := by
  obtain ⟨-, -, hSalt⟩ := h
  have hMax : KeyReader.maxLength = 1048575 := rfl
  have hMaxSalt : maxSaltLength = 64 := rfl
  rw [ContainerHeader.putKdfOptions, List.length_append, Field.length_putString,
    Field.stringLength, Bytes.length_be32]
  omega

namespace GeneralContainer

open KeyReader (armored)
open StateExcept (bind_eq_ok_iff refuse_eq_ok_iff)
open SshKeys.Field (putString putText)

/-- The fields of an encrypted container without a tag. -/
def sealedPayload (name : String) (kdf : KdfParameters) (key : PublicKey) (ciphertext : Bytes) :
    Bytes :=
  ContainerHeader.magic ++ (putText name ++ ((putText KdfParameters.bcryptName ++
    putString (ContainerHeader.putKdfOptions kdf)) ++ (Bytes.be32 1 ++ (putString key.blob ++
      putString ciphertext))))

/-- The sizes of the fields of such a container. -/
structure Fits (c : SectionCipher) (kdf : KdfParameters) (key : PublicKey) (ciphertext : Bytes) :
    Prop where
  tagLength_eq : c.tagLength = 0
  options_le : (ContainerHeader.putKdfOptions kdf).length ≤ KeyReader.maxLength
  key_valid : key.Valid
  blob_le : key.blob.length ≤ KeyReader.maxLength
  ciphertext_ne : ciphertext ≠ []
  ciphertext_le : ciphertext.length ≤ KeyReader.maxLength
  ciphertext_blocks : ciphertext.length % c.blockSize = 0

theorem putString_ne_nil (b : Bytes) : putString b ≠ [] := by
  refine List.ne_nil_of_length_pos ?_
  rw [Field.length_putString, Field.stringLength]
  omega

theorem sealedPayload_ne_nil (name : String) (kdf : KdfParameters) (key : PublicKey)
    (ciphertext : Bytes) : sealedPayload name kdf key ciphertext ≠ [] :=
  List.append_ne_nil_of_right_ne_nil _ (List.append_ne_nil_of_left_ne_nil (putString_ne_nil _) _)

/-- The fields are read one after the other; `o` is what the parameters are read from, and `d` what
the public key is. -/
theorem run_fields {name : String} {c : SectionCipher} {kdf : KdfParameters} {key : PublicKey}
    {o d ciphertext : Bytes} (hCipher : SectionCipher.ofName? name = some (some c))
    (hTag : c.tagLength = 0) (hOptions : KeyReader.Yields KeyReader.kdfOptions o (some kdf))
    (hKey : KeyReader.Yields (KeyReader.nested KeyReader.publicKey) d key)
    (hNe : ciphertext ≠ []) (hMax : ciphertext.length ≤ KeyReader.maxLength)
    (hBlocks : ciphertext.length % c.blockSize = 0) :
    KeyReader.container.run (armored (ContainerHeader.magic ++ (putText name ++ (o ++
        (Bytes.be32 1 ++ (d ++ putString ciphertext)))))) =
      .ok (.sealed c (some kdf) key ciphertext [], armored []) := by
  have hMagic : KeyReader.Yields (KeyReader.take ContainerHeader.magic.length)
      ContainerHeader.magic ContainerHeader.magic := KeyReader.yields_take rfl
  have hName := KeyReader.yields_name hCipher (SectionCipher.name_le hCipher)
  have hCount : KeyReader.Yields KeyReader.count (Bytes.be32 1) 1 :=
    KeyReader.yields_count (n := 1) (by decide)
  -- Each field has something behind it but the last.
  have hRest₁ := putString_ne_nil ciphertext
  have hRest₂ := List.append_ne_nil_of_right_ne_nil d hRest₁
  have hRest₃ := List.append_ne_nil_of_right_ne_nil (Bytes.be32 1) hRest₂
  have hRest₄ := List.append_ne_nil_of_right_ne_nil o hRest₃
  have hRest₅ := List.append_ne_nil_of_right_ne_nil (putText name) hRest₄
  rw [KeyReader.container, StateT.run]
  refine (hMagic.bind_armored hRest₅).trans ?_
  refine refuse_eq_ok_iff.2 ⟨not_not.2 rfl, ?_⟩
  refine (hName.bind_armored hRest₄).trans ?_
  refine (hOptions.bind_armored hRest₃).trans ?_
  refine (hCount.bind_armored hRest₂).trans ?_
  refine refuse_eq_ok_iff.2 ⟨not_not.2 rfl, ?_⟩
  refine (hKey.bind_armored hRest₁).trans ?_
  refine bind_eq_ok_iff.2 ⟨ciphertext, armored [], KeyReader.field_armored hNe hMax, ?_⟩
  refine refuse_eq_ok_iff.2 ⟨not_not.2 hBlocks, ?_⟩
  rw [if_pos hTag]
  rfl

theorem run_sealedPayload {name : String} {c : SectionCipher} {kdf : KdfParameters}
    {key : PublicKey} {ciphertext : Bytes} (hCipher : SectionCipher.ofName? name = some (some c))
    (h : Fits c kdf key ciphertext) :
    KeyReader.container.run (armored (sealedPayload name kdf key ciphertext)) =
      .ok (.sealed c (some kdf) key ciphertext [], armored []) :=
  run_fields hCipher h.tagLength_eq (KeyReader.yields_kdfOptions h.options_le)
    ((KeyReader.yields_publicKey h.key_valid).fills.nested h.blob_le) h.ciphertext_ne
    h.ciphertext_le h.ciphertext_blocks

/-- **The parameters of a sealed container are taken over whatever they are.** -/
theorem parse_wrap {name : String} {c : SectionCipher} {kdf : KdfParameters}
    {key : PublicKey} {ciphertext : Bytes} (hCipher : SectionCipher.ofName? name = some (some c))
    (h : Fits c kdf key ciphertext) :
    parse (Text.trim (Armor.wrap (sealedPayload name kdf key ciphertext))) =
      .ok (.sealed c (some kdf) key ciphertext []) := by
  have hNe := sealedPayload_ne_nil name kdf key ciphertext
  rw [Pem.wrap_eq_file hNe, Pem.trim_file, parse,
    Pem.input?_file (by decide) (by decide) hNe]
  exact congrArg (Except.map (·.1)) (run_sealedPayload hCipher h)

/-! ## Opening -/

/-- What opening a sealed container comes down to. -/
theorem decrypt_eq_ok {c : SectionCipher} {kdf : Option KdfParameters} {key : PublicKey}
    {ciphertext tag passphrase : Bytes} {k : PrivateKey}
    (h : decrypt c kdf key ciphertext tag passphrase = .ok k) :
    ∃ params material content j, kdf = some params ∧
      params.derive passphrase (c.keyLength + c.ivLength) = .ok material ∧
      c.decrypt? (material.take c.keyLength) (material.drop c.keyLength) ciphertext tag =
        some content ∧
      KeyReader.privateSection key c.blockSize (.ofBytes content) = .ok (k, j) := by
  rw [decrypt.eq_def] at h
  split at h
  · cases h
  · next params =>
    split at h
    · cases h
    · next material hMaterial =>
      split at h
      · cases h
      · next content hContent =>
        obtain ⟨⟨k', j⟩, hSection, hPure⟩ := Result.bind_eq_ok_iff.1 h
        cases hPure
        exact ⟨params, material, content, j, rfl, hMaterial, hContent, hSection⟩

/-- A key stands in the text in the clear, or the passphrase opens the section it stands in. -/
theorem privateKey_eq_ok {text : String} {passphrase : Option Bytes} {k : PrivateKey}
    (h : privateKey text passphrase = .ok k) :
    parse text = .ok (.plain k) ∨ ∃ c kdf key ciphertext tag p,
      parse text = .ok (.sealed c kdf key ciphertext tag) ∧ passphrase = some p ∧
        decrypt c kdf key ciphertext tag p = .ok k := by
  have hChecked {k' : PrivateKey} (hEq : k'.checked = .ok k) : k' = k := by
    obtain ⟨_, -, hPure⟩ := Result.bind_eq_ok_iff.1 hEq
    cases hPure
    rfl
  rw [privateKey.eq_def] at h
  split at h
  · cases h
  · cases h
  · next k' hParse => exact .inl (hChecked h ▸ hParse)
  · next c kdf key ciphertext tag hParse =>
    split at h
    · cases h
    · next p =>
      split at h
      · cases h
      · cases h
      · next k' hDecrypt =>
        exact .inr ⟨c, kdf, key, ciphertext, tag, p, hParse, rfl, hChecked h ▸ hDecrypt⟩

end GeneralContainer

end SshKeys
