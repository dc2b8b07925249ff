import SshKeys.Cipher.Profile
import SshKeys.Kdf.Bcrypt
import SshKeys.Kdf.Parameters
import SshKeys.Proofs.Bytes

/-!
# Ciphers opened again

The stream ciphers add a keystream that is at least as long as the text, so
adding it twice gives the text back, and the tag that is checked is computed as
it was written.

* `CipherProfile.encrypt_eq_ok_iff`, `CipherProfile.decrypt_eq_ok_iff`: **encryption and
  decryption take the same key material and relate the same texts**.
* `CipherProfile.exists_encrypt`: key material of the right length is enough to
  encrypt while the keystream lasts, and what is encrypted is decrypted.
* `KdfParameters.exists_derive`: key material can be derived from any passphrase
  that is not empty.
-/

namespace SshKeys

theorem length_flatMap_range {f : Nat → Bytes} {n : Nat} (hf : ∀ i, (f i).length = n) (k : Nat) :
    ((List.range k).flatMap f).length = k * n := by
  simp [List.length_flatMap, hf, Function.const_def]

/-- A list of pieces of one length, element by element. -/
theorem getElem?_flatMap_of_length {α β : Type} {f : α → List β} {n : Nat} (hn : 0 < n)
    (hf : ∀ a, (f a).length = n) (l : List α) (i : Nat) :
    (l.flatMap f)[i]? = l[i / n]?.bind fun a => (f a)[i % n]? := by
  induction l generalizing i with
  | nil => rfl
  | cons a l ih =>
    rw [List.flatMap_cons]
    by_cases h : i < n
    · rw [List.getElem?_append_left (by rw [hf]; exact h), Nat.div_eq_of_lt h, Nat.mod_eq_of_lt h]
      rfl
    · obtain ⟨j, rfl⟩ := Nat.exists_eq_add_of_le (Nat.le_of_not_lt h)
      rw [List.getElem?_append_right (by rw [hf]; omega), hf, Nat.add_sub_cancel_left, ih,
        Nat.add_div_left _ hn, Nat.add_mod_left, List.getElem?_cons_succ]

/-! ## Keystreams -/

theorem Aes.length_encrypt (ks : Schedule) (b : Bytes) : (encrypt ks b).length = 16 := rfl

theorem Ctr.length_keystream {f : Bytes → Bytes} (hf : ∀ b, (f b).length = 16)
    (counter blocks : Nat) : (keystream f counter blocks).length = blocks * 16 :=
  length_flatMap_range (fun _ => hf _) blocks

theorem Ctr.length_apply {f : Bytes → Bytes} (hf : ∀ b, (f b).length = 16) (counter : Nat)
    (data : Bytes) : (apply f counter data).length = data.length := by
  rw [apply, Bytes.length_xor, length_keystream hf]
  omega

/-- Adding the keystream twice gives the data back. -/
theorem Ctr.apply_apply {f : Bytes → Bytes} (hf : ∀ b, (f b).length = 16) (counter : Nat)
    (data : Bytes) : apply f counter (apply f counter data) = data := by
  have hLength := length_apply hf counter data
  have hLong : data.length ≤ (keystream f counter ((data.length + 15) / 16)).length := by
    rw [length_keystream hf]
    omega
  rw [apply, hLength, apply, Bytes.xor_xor_cancel hLong]

namespace ChaCha20

theorem length_rounds (pairs : Nat)
    (x0 x1 x2 x3 x4 x5 x6 x7 x8 x9 x10 x11 x12 x13 x14 x15 : UInt32) :
    (rounds pairs x0 x1 x2 x3 x4 x5 x6 x7 x8 x9 x10 x11 x12 x13 x14 x15).length = 16 := by
  induction pairs generalizing x0 x1 x2 x3 x4 x5 x6 x7 x8 x9 x10 x11 x12 x13 x14 x15 with
  | zero => rfl
  | succ n ih =>
    rw [rounds]
    exact ih ..

theorem length_mix (ws : List UInt32) : (mix ws).length = 16 := by
  rw [mix.eq_def]
  split
  · rw [List.length_zipWith, length_rounds]
    rfl
  · exact List.length_replicate

theorem length_block (key nonce : Bytes) (counter : Nat) :
    (block key nonce counter).length = 64 := by
  have hWords (ws : List UInt32) : (ws.flatMap Bytes.le32).length = 4 * ws.length := by
    induction ws with
    | nil => rfl
    | cons w ws ih =>
      rw [List.flatMap_cons, List.length_append, ih, List.length_cons]
      change 4 + 4 * ws.length = _
      omega
  rw [block, hWords, length_mix]

theorem length_keystream (key nonce : Bytes) (blocks : Nat) :
    (keystream key nonce blocks).length = blocks * 64 :=
  length_flatMap_range (length_block key nonce) blocks

end ChaCha20

namespace ChaChaPoly

theorem length_mask (material data : Bytes) : (mask material data).length = data.length := by
  rw [mask, Bytes.length_xor, List.length_drop, keystream, ChaCha20.length_keystream]
  omega

theorem mask_mask (material data : Bytes) : mask material (mask material data) = data := by
  -- The first block is the key of the tag, so one more is drawn than the data fill.
  have hLong :
      data.length ≤ ((keystream material (1 + (data.length + 63) / 64)).drop 64).length := by
    rw [List.length_drop, keystream, ChaCha20.length_keystream]
    omega
  rw [mask, length_mask, mask, Bytes.xor_xor_cancel hLong]

theorem length_tag (material ciphertext : Bytes) :
    (tag material ciphertext).length = tagLength := by
  rw [tag, Poly1305.tag, Bytes.ofNatLE, List.length_reverse, Bytes.length_ofNat]
  rfl

/-- A text whose length can be declared in a container is shorter than the keystream. -/
theorem lasts_of_lt {n : Nat} (h : n < 2 ^ 32) : Lasts n := by
  rw [Lasts, ChaCha20.blockLimit]
  omega

theorem apply_eq_ok_iff {data material masked : Bytes} :
    apply data material = .ok masked ↔ Lasts data.length ∧ mask material data = masked := by
  rw [apply]
  split
  · next hLasts => rw [Except.ok.injEq, and_iff_right hLasts]
  · next hLasts => exact iff_of_false (fun h => nomatch h) fun h => hLasts h.1

theorem encrypt_eq {data material : Bytes} (h : material.length = keyMaterialLength) :
    encrypt data material =
      if Lasts data.length then
        .ok (mask material data ++ tag material (mask material data))
      else .error (.cipherFailure .keystream) := by
  rw [encrypt, checkMaterial, if_pos h, apply]
  split <;> rfl

/-- Whether a seal is opened is decided by its tag alone. -/
theorem decrypt_append {ciphertext t material : Bytes} (h : material.length = keyMaterialLength)
    (hTag : t.length = tagLength) : decrypt (ciphertext ++ t) material =
      if tag material ciphertext = t then apply ciphertext material
      else .error .decryptionFailed := by
  have hLength : (ciphertext ++ t).length - tagLength = ciphertext.length := by
    rw [List.length_append, hTag]
    omega
  rw [decrypt, if_neg (by rw [List.length_append, hTag]; omega), checkMaterial, if_pos h, hLength,
    List.take_left, List.drop_left]
  rfl

theorem decrypt_encrypt {data material : Bytes} (h : material.length = keyMaterialLength)
    (hLasts : Lasts data.length) :
    decrypt (mask material data ++ tag material (mask material data)) material = .ok data := by
  rw [decrypt_append h (length_tag ..), if_pos rfl, apply_eq_ok_iff, length_mask, mask_mask]
  exact ⟨hLasts, rfl⟩

/-- **What is opened is what was sealed.** -/
theorem eq_of_decrypt {sealed data material : Bytes} (h : material.length = keyMaterialLength)
    (hOpen : decrypt sealed material = .ok data) :
    Lasts data.length ∧ mask material data ++ tag material (mask material data) = sealed := by
  by_cases hShort : sealed.length < tagLength
  · rw [decrypt, if_pos hShort] at hOpen
    cases hOpen
  · have hSplit := List.take_append_drop (sealed.length - tagLength) sealed
    have hTag : (sealed.drop (sealed.length - tagLength)).length = tagLength := by
      rw [List.length_drop]
      omega
    rw [← hSplit, decrypt_append h hTag] at hOpen
    split at hOpen
    · next hSame =>
      obtain ⟨hLasts, rfl⟩ := apply_eq_ok_iff.1 hOpen
      rw [length_mask, mask_mask, hSame, hSplit]
      exact ⟨hLasts, rfl⟩
    · cases hOpen

end ChaChaPoly

/-! ## Profiles -/

theorem CipherKind.profile_kind (k : CipherKind) : k.profile.kind = k := by
  cases k <;> rfl

theorem CipherProfile.byName?_eq_some_iff {name : String} {p : CipherProfile} :
    byName? name = some p ↔ ∃ k : CipherKind, p = k.profile ∧ name = k.name := by
  have hAll : ∀ k : CipherKind, byName? k.name = some k.profile := by
    intro k
    cases k <;> decide
  constructor
  · intro h
    have hMem := List.mem_of_find?_eq_some h
    have hName := List.find?_some h
    obtain ⟨k, -, rfl⟩ := List.mem_map.1 hMem
    exact ⟨k, rfl, (beq_iff_eq.1 hName).symm⟩
  · rintro ⟨k, rfl, rfl⟩
    exact hAll k

/-- The name of a cipher finds its own profile. -/
theorem CipherProfile.byName?_name (k : CipherKind) : byName? k.name = some k.profile :=
  byName?_eq_some_iff.2 ⟨k, rfl, rfl⟩

/-- AES-256 in counter mode, with the key in front of the initial vector. -/
def AesCtr.mask (material data : Bytes) : Bytes :=
  Ctr.apply (Aes.encrypt (Aes.schedule (material.take 32))) (Bytes.toNat (material.drop 32)) data

theorem AesCtr.length_mask (material data : Bytes) : (mask material data).length = data.length :=
  Ctr.length_apply (Aes.length_encrypt _) _ data

theorem AesCtr.mask_mask (material data : Bytes) : mask material (mask material data) = data :=
  Ctr.apply_apply (Aes.length_encrypt _) _ data

/-- What a text is sealed as under key material of the right length. -/
def CipherKind.sealed : CipherKind → (material data : Bytes) → Bytes
  | none, _, data => data
  | aes256Ctr, material, data => AesCtr.mask material data
  | chacha20Poly1305, material, data =>
    ChaChaPoly.mask material data ++ ChaChaPoly.tag material (ChaChaPoly.mask material data)

/-- Whether the keystream of a cipher lasts for a text of `n` bytes; only that of ChaCha20 ends. -/
def CipherKind.Lasts (k : CipherKind) (n : Nat) : Prop :=
  k = .chacha20Poly1305 → ChaChaPoly.Lasts n

theorem CipherKind.lasts_of_lt (k : CipherKind) {n : Nat} (h : n < 2 ^ 32) : k.Lasts n :=
  fun _ => ChaChaPoly.lasts_of_lt h

theorem CipherKind.lasts_of_ne {k : CipherKind} (h : k ≠ .chacha20Poly1305) (n : Nat) :
    k.Lasts n :=
  fun hSame => absurd hSame h

namespace CipherProfile

variable {k : CipherKind} {data sealed material : Bytes}

theorem aes_apply (h : material.length = CipherKind.aes256Ctr.profile.keyMaterialLength) :
    AesCtr.apply data (material.take 32) (material.drop 32) = .ok (AesCtr.mask material data) := by
  have h48 : material.length = 48 := h
  refine if_pos ?_
  rw [List.length_take, List.length_drop]
  omega

theorem encrypt_eq (h : material.length = k.profile.keyMaterialLength)
    (hLasts : k.Lasts data.length) :
    k.profile.encrypt data material = .ok (k.sealed material data) := by
  have hCheck : k.profile.checkMaterial material = .ok () := if_pos h
  rw [encrypt, hCheck]
  cases k with
  | none => rfl
  | aes256Ctr => exact aes_apply h
  | chacha20Poly1305 => exact (ChaChaPoly.encrypt_eq h).trans (if_pos (hLasts rfl))

theorem decrypt_none (h : material.length = CipherKind.none.profile.keyMaterialLength) :
    CipherKind.none.profile.decrypt sealed material = .ok sealed := by
  have hCheck : CipherKind.none.profile.checkMaterial material = .ok () := if_pos h
  rw [decrypt, hCheck]
  rfl

theorem decrypt_aes (h : material.length = CipherKind.aes256Ctr.profile.keyMaterialLength) :
    CipherKind.aes256Ctr.profile.decrypt sealed material = .ok (AesCtr.mask material sealed) := by
  have hCheck : CipherKind.aes256Ctr.profile.checkMaterial material = .ok () := if_pos h
  rw [decrypt, hCheck]
  exact aes_apply h

theorem decrypt_chacha
    (h : material.length = CipherKind.chacha20Poly1305.profile.keyMaterialLength) :
    CipherKind.chacha20Poly1305.profile.decrypt sealed material =
      ChaChaPoly.decrypt sealed material := by
  have hCheck : CipherKind.chacha20Poly1305.profile.checkMaterial material = .ok () := if_pos h
  rw [decrypt, hCheck]
  rfl

theorem material_of_encrypt {p : CipherProfile} (h : p.encrypt data material = .ok sealed) :
    material.length = p.keyMaterialLength := by
  by_contra hNe
  rw [encrypt, checkMaterial, if_neg hNe] at h
  cases h

theorem material_of_decrypt {p : CipherProfile} (h : p.decrypt sealed material = .ok data) :
    material.length = p.keyMaterialLength := by
  by_contra hNe
  rw [decrypt, checkMaterial, if_neg hNe] at h
  cases h

theorem encrypt_of_not_lasts (h : material.length = k.profile.keyMaterialLength)
    (hNot : ¬k.Lasts data.length) :
    k.profile.encrypt data material = .error (.cipherFailure .keystream) := by
  obtain ⟨rfl, hLong⟩ := Classical.not_imp.1 hNot
  have hCheck : CipherKind.chacha20Poly1305.profile.checkMaterial material = .ok () := if_pos h
  rw [encrypt, hCheck]
  exact (ChaChaPoly.encrypt_eq h).trans (if_neg hLong)

theorem lasts_of_encrypt (h : k.profile.encrypt data material = .ok sealed) :
    k.Lasts data.length := by
  by_contra hNot
  rw [encrypt_of_not_lasts (material_of_encrypt h) hNot] at h
  cases h

theorem encrypt_eq_ok_iff : k.profile.encrypt data material = .ok sealed ↔
    material.length = k.profile.keyMaterialLength ∧ k.Lasts data.length ∧
      k.sealed material data = sealed := by
  constructor
  · intro h
    have hMaterial := material_of_encrypt h
    have hLasts := lasts_of_encrypt h
    rw [encrypt_eq hMaterial hLasts] at h
    exact ⟨hMaterial, hLasts, Except.ok.inj h⟩
  · rintro ⟨hMaterial, hLasts, rfl⟩
    exact encrypt_eq hMaterial hLasts

/-- What is opened is what the text is sealed as. -/
theorem decrypt_eq_ok_iff : k.profile.decrypt sealed material = .ok data ↔
    material.length = k.profile.keyMaterialLength ∧ k.Lasts data.length ∧
      k.sealed material data = sealed := by
  constructor
  · intro h
    have hMaterial := material_of_decrypt h
    refine ⟨hMaterial, ?_⟩
    cases k with
    | none =>
      rw [decrypt_none hMaterial] at h
      exact ⟨CipherKind.lasts_of_ne (by decide) _, (Except.ok.inj h).symm⟩
    | aes256Ctr =>
      rw [decrypt_aes hMaterial] at h
      cases h
      exact ⟨CipherKind.lasts_of_ne (by decide) _, AesCtr.mask_mask material sealed⟩
    | chacha20Poly1305 =>
      rw [decrypt_chacha hMaterial] at h
      obtain ⟨hLasts, hSealed⟩ := ChaChaPoly.eq_of_decrypt hMaterial h
      exact ⟨fun _ => hLasts, hSealed⟩
  · rintro ⟨hMaterial, hLasts, rfl⟩
    cases k with
    | none => exact decrypt_none hMaterial
    | aes256Ctr => rw [decrypt_aes hMaterial, CipherKind.sealed, AesCtr.mask_mask]
    | chacha20Poly1305 => rw [decrypt_chacha hMaterial, CipherKind.sealed,
        ChaChaPoly.decrypt_encrypt hMaterial (hLasts rfl)]

/-- A seal is longer than its text by the tag. -/
theorem length_sealed (k : CipherKind) (material data : Bytes) :
    (k.sealed material data).length = data.length + k.profile.tagLength := by
  cases k with
  | none => rfl
  | aes256Ctr => exact AesCtr.length_mask material data
  | chacha20Poly1305 =>
    rw [CipherKind.sealed, List.length_append, ChaChaPoly.length_mask, ChaChaPoly.length_tag]
    rfl

/-- Key material of the right length is enough while the keystream lasts; the tag stands behind as
many bytes as the text has, and all of it is opened again. -/
theorem exists_encrypt (h : material.length = k.profile.keyMaterialLength)
    (hLasts : k.Lasts data.length) :
    ∃ sealed, k.profile.encrypt data material = .ok sealed ∧
      sealed.length = data.length + k.profile.tagLength ∧
      k.profile.decrypt sealed material = .ok data :=
  ⟨_, encrypt_eq h hLasts, length_sealed k material data, decrypt_eq_ok_iff.2 ⟨h, hLasts, rfl⟩⟩

/-- A plaintext is as long as what stands before the tag. -/
theorem length_of_decrypt (h : k.profile.decrypt sealed material = .ok data) :
    sealed.length = data.length + k.profile.tagLength := by
  obtain ⟨-, -, rfl⟩ := decrypt_eq_ok_iff.1 h
  exact length_sealed k material data

end CipherProfile

/-! ## Key material -/

theorem Bcrypt.exists_derive {passphrase salt : Bytes} {rounds len : Nat}
    (hPassphrase : passphrase ≠ []) (hSalt : salt ≠ []) (hRounds : rounds ≠ 0) (hLen : len ≠ 0)
    (hMax : len ≤ maxOutput) :
    ∃ b, derive passphrase salt rounds len = .ok b ∧ b.length = len := by
  have hDerive : derive passphrase salt rounds len =
      .ok (interleave ((Array.range ((len + 31) / 32)).map fun i =>
        block (sha512 passphrase) salt rounds (i + 1)) len) := by
    rw [derive, if_neg (by simp [hPassphrase, hSalt]), if_neg hRounds, if_neg (by omega)]
  exact ⟨_, hDerive, by simp [interleave]⟩

theorem KdfParameters.exists_derive {k : KdfParameters} {passphrase : Bytes} {length : Nat}
    (hPassphrase : passphrase ≠ []) (hSalt : k.salt ≠ []) (hRounds : k.rounds ≠ 0)
    (hLength : length ≠ 0) (hMax : length ≤ Bcrypt.maxOutput) :
    ∃ b, k.derive passphrase length = .ok b ∧ b.length = length := by
  have hRoundsNat : k.rounds.toNat ≠ 0 := fun h => hRounds (UInt32.toNat_inj.1 h)
  obtain ⟨b, hb, hLen⟩ := Bcrypt.exists_derive hPassphrase hSalt hRoundsNat hLength hMax
  refine ⟨b, ?_, hLen⟩
  rw [derive, if_neg hPassphrase, if_neg hRounds, hb]

end SshKeys
