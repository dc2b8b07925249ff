import SshKeys.Proofs.ChaCha20
import SshKeys.Proofs.Poly1305

/-!
# Seals

A text is opened exactly as it was sealed: `CipherProfile.encrypt_eq_ok_iff` and
`CipherProfile.decrypt_eq_ok_iff` have the same right side, so either direction of
`CipherProfile.sealing_inverse` is a step through it.  Behind a ciphertext of ChaCha20
the tag alone decides, hence one tag is accepted and no other.

That a seal can be opened again does not say which seal it is: a keystream begun at
another byte would be undone as well, and so would one that started from other words.
`ChaChaPoly.IsReference` therefore names every byte, in terms of the standard and not of
the code.  The first 32 bytes of the keystream are the key of the tag, the next 32 are
passed over, and the text is masked from byte 64 on.

The block counter has 32 bits, and its last value is not used, so the keystream ends.
Longer texts are neither sealed nor opened.

* `CipherProfile.sealing_inverse`: **under every cipher, sealing and opening undo each
  other**.
* `ChaChaPoly.seal_reference`: **a seal is the one of its reference, whatever the second
  half of the key material is**.
-/

namespace SshKeys

/-! ## Sealing and opening -/

namespace ChaChaPoly

theorem lasts_iff {n : Nat} : Lasts n ↔ n ≤ 64 * (2 ^ 32 - 2) := by
  rw [Lasts, ChaCha20.blockLimit]
  omega

end ChaChaPoly

namespace CipherProfile

theorem encrypt_eq_ok_iff_decrypt {k : CipherKind} {data sealed material : Bytes} :
    k.profile.encrypt data material = .ok sealed ↔ k.profile.decrypt sealed material = .ok data :=
  encrypt_eq_ok_iff.trans decrypt_eq_ok_iff.symm

theorem exists_encrypt_iff {k : CipherKind} {data material : Bytes} :
    (∃ sealed, k.profile.encrypt data material = .ok sealed) ↔
      material.length = k.profile.keyMaterialLength ∧ k.Lasts data.length := by
  constructor
  · rintro ⟨sealed, h⟩
    exact ⟨material_of_encrypt h, lasts_of_encrypt h⟩
  · rintro ⟨h, hLasts⟩
    exact ⟨_, encrypt_eq h hLasts⟩

/-- Of all tags behind a ciphertext exactly one opens it. -/
theorem exists_tag {material : Bytes}
    (h : material.length = CipherKind.chacha20Poly1305.profile.keyMaterialLength)
    (ciphertext : Bytes) :
    ∃ tag, tag.length = 16 ∧
      ((∃ data, CipherKind.chacha20Poly1305.profile.decrypt (ciphertext ++ tag) material
        = .ok data) ↔ ChaChaPoly.Lasts ciphertext.length) ∧
      ∀ other, other.length = 16 → other ≠ tag →
        CipherKind.chacha20Poly1305.profile.decrypt (ciphertext ++ other) material
          = .error .decryptionFailed := by
  have hTag := ChaChaPoly.length_tag material ciphertext
  refine ⟨ChaChaPoly.tag material ciphertext, hTag, ?_, ?_⟩
  · rw [decrypt_chacha h, ChaChaPoly.decrypt_append h hTag, if_pos rfl]
    constructor
    · rintro ⟨data, hOpen⟩
      exact (ChaChaPoly.apply_eq_ok_iff.1 hOpen).1
    · intro hLasts
      exact ⟨_, ChaChaPoly.apply_eq_ok_iff.2 ⟨hLasts, rfl⟩⟩
  · intro other hOther hNe
    rw [decrypt_chacha h, ChaChaPoly.decrypt_append h hOther, if_neg hNe.symm]

/-- **Every cipher opens what it seals and nothing else**: while its keystream lasts, it seals under
any key material of its own length, adds its tag to the length of the text, and behind a ciphertext
no tag is accepted but one. -/
theorem sealing_inverse :
    (∀ (k : CipherKind) (data sealed material : Bytes),
      k.profile.encrypt data material = .ok sealed ↔
        k.profile.decrypt sealed material = .ok data) ∧
    (∀ (k : CipherKind) (data material : Bytes),
      (∃ sealed, k.profile.encrypt data material = .ok sealed) ↔
        material.length = k.profile.keyMaterialLength ∧ k.Lasts data.length) ∧
    (∀ (k : CipherKind) (data sealed material : Bytes),
      k.profile.encrypt data material = .ok sealed →
        sealed.length = data.length + k.profile.tagLength) ∧
    ∀ ciphertext material : Bytes,
      material.length = CipherKind.chacha20Poly1305.profile.keyMaterialLength →
      ∃ tag, tag.length = 16 ∧
        ((∃ data, CipherKind.chacha20Poly1305.profile.decrypt (ciphertext ++ tag) material
          = .ok data) ↔ ChaChaPoly.Lasts ciphertext.length) ∧
        ∀ other, other.length = 16 → other ≠ tag →
          CipherKind.chacha20Poly1305.profile.decrypt (ciphertext ++ other) material
            = .error .decryptionFailed := by
  refine ⟨?inverse, ?total, ?length, ?tag⟩
  case inverse => exact fun _ _ _ _ => encrypt_eq_ok_iff_decrypt
  case total => exact fun _ _ _ => exists_encrypt_iff
  case length => exact fun _ _ _ _ h => length_of_decrypt (encrypt_eq_ok_iff_decrypt.1 h)
  case tag => exact fun ciphertext _ h => exists_tag h ciphertext

theorem sealing_inverse_zeros :
    (∃ sealed, CipherKind.chacha20Poly1305.profile.encrypt [1, 2, 3] (Bytes.zeros 64) = .ok sealed ∧
      CipherKind.chacha20Poly1305.profile.decrypt sealed (Bytes.zeros 64) = .ok [1, 2, 3] ∧
      sealed.length = 19) ∧
      ∃ tag, tag.length = 16 ∧ ∃ data,
        CipherKind.chacha20Poly1305.profile.decrypt ([1, 2, 3] ++ tag) (Bytes.zeros 64)
          = .ok data := by
  obtain ⟨hInverse, hTotal, hLength, hTag⟩ := sealing_inverse
  have hLasts : ChaChaPoly.Lasts 3 := by decide
  obtain ⟨sealed, h⟩ := (hTotal .chacha20Poly1305 [1, 2, 3] (Bytes.zeros 64)).2
    ⟨rfl, fun _ => hLasts⟩
  obtain ⟨tag, hTagLength, hOpens, -⟩ := hTag [1, 2, 3] (Bytes.zeros 64) rfl
  exact ⟨⟨sealed, h, (hInverse _ _ _ _).1 h, hLength _ _ _ _ h⟩, tag, hTagLength, hOpens.2 hLasts⟩

end CipherProfile

/-! ## The reference of a seal -/

namespace ChaChaPoly

variable {material data : Bytes}

/-- Byte `i` of the keystream a text is sealed with: the key is the first half of the key material,
and the nonce is zero. -/
def stream (material : Bytes) (i : Nat) : UInt8 :=
  ChaCha20.streamByte (material.take 32) (List.replicate 12 0) i

/-- The first half of the first block keys the tag, and the second block is the first that the
text is masked with. -/
structure IsReference (material data ciphertext tag : Bytes) : Prop where
  length_eq : ciphertext.length = data.length
  masked : ∀ i (h : i < data.length), ciphertext[i]? = some (data[i] ^^^ stream material (64 + i))
  isTag : Poly1305.IsTag ((List.range 32).map (stream material)) ciphertext tag

/-- There is no other reference of a text. -/
theorem IsReference.eq {c c' t t' : Bytes} (h : IsReference material data c t)
    (h' : IsReference material data c' t') : c = c' ∧ t = t' := by
  have hSame : c = c' := by
    refine List.ext_getElem? fun i => ?_
    by_cases hi : i < data.length
    · rw [h.masked i hi, h'.masked i hi]
    · rw [List.getElem?_eq_none (by rw [h.length_eq]; omega),
        List.getElem?_eq_none (by rw [h'.length_eq]; omega)]
  subst hSame
  exact ⟨rfl, h.isTag.eq h'.isTag⟩

theorem getElem?_keystream (h : material.length = keyMaterialLength) {blocks i : Nat}
    (hi : i < blocks * 64) : (keystream material blocks)[i]? = some (stream material i) := by
  have hKey : (material.take 32).length = 32 := by
    rw [List.length_take, h]
    rfl
  exact ChaCha20.getElem?_keystream hKey rfl hi

theorem take_keystream (h : material.length = keyMaterialLength) :
    (keystream material 1).take 32 = (List.range 32).map (stream material) := by
  refine List.ext_getElem? fun i => ?_
  by_cases hi : i < 32
  · rw [List.getElem?_take_of_lt hi, getElem?_keystream h (by omega), List.getElem?_map,
      List.getElem?_range hi]
    rfl
  · have hOut : 32 ≤ i := by omega
    rw [List.getElem?_take_eq_none hOut, List.getElem?_map,
      List.getElem?_eq_none (by simpa using hOut)]
    rfl

theorem getElem?_mask (h : material.length = keyMaterialLength) {i : Nat} (hi : i < data.length) :
    (mask material data)[i]? = some (data[i] ^^^ stream material (64 + i)) := by
  rw [mask, Bytes.xor, List.getElem?_zipWith, List.getElem?_eq_getElem hi, List.getElem?_drop,
    getElem?_keystream h (by omega)]

theorem isReference_mask (h : material.length = keyMaterialLength) (data : Bytes) :
    IsReference material data (mask material data) (tag material (mask material data)) where
  length_eq := length_mask material data
  masked _ hi := getElem?_mask h hi
  isTag := by
    have hKey : 16 ≤ ((List.range 32).map (stream material)).length := by
      rw [List.length_map, List.length_range]
      decide
    rw [tag, take_keystream h]
    exact Poly1305.isTag_tag hKey _

section SecondHalf

variable {material' : Bytes} (h : material'.take 32 = material.take 32)
include h

theorem mask_congr (b : Bytes) : mask material' b = mask material b := by
  rw [mask, keystream, h, mask, keystream]

theorem tag_congr (b : Bytes) : tag material' b = tag material b := by
  rw [tag, keystream, h, tag, keystream]

theorem apply_congr (b : Bytes) : apply b material' = apply b material := by
  rw [apply, apply, mask_congr h]

end SecondHalf

/-- **A seal is the one of its reference**, of which there is one only; a text that the keystream
does not last for is not sealed; and the second half of the key material is used neither to seal
nor to open. -/
theorem seal_reference (h : material.length = keyMaterialLength) :
    (∀ data : Bytes, data.length ≤ 64 * (2 ^ 32 - 2) →
      ∃ ciphertext t, encrypt data material = .ok (ciphertext ++ t) ∧
        ∀ c' t', IsReference material data c' t' ↔ c' = ciphertext ∧ t' = t) ∧
    (∀ data : Bytes, 64 * (2 ^ 32 - 2) < data.length →
      encrypt data material = .error (.cipherFailure .keystream)) ∧
    ∀ material' : Bytes, material'.length = keyMaterialLength →
      material'.take 32 = material.take 32 →
      ∀ b, encrypt b material' = encrypt b material ∧ decrypt b material' = decrypt b material := by
  refine ⟨fun data hData => ?_, fun data hData => ?_, fun material' h' hHalf b => ?_⟩
  · have hReference := isReference_mask h data
    refine ⟨_, _, (encrypt_eq h).trans (if_pos (lasts_iff.2 hData)), fun c' t' => ?_⟩
    constructor
    · exact fun hOwn => hOwn.eq hReference
    · rintro ⟨rfl, rfl⟩
      exact hReference
  · exact (encrypt_eq h).trans (if_neg fun hLasts => absurd (lasts_iff.1 hLasts) (by omega))
  · have hCheck : checkMaterial material' = checkMaterial material := by
      rw [checkMaterial, checkMaterial, if_pos h, if_pos h']
    constructor
    · simp only [encrypt, hCheck, apply_congr hHalf, tag_congr hHalf]
    · simp only [decrypt, hCheck, apply_congr hHalf, tag_congr hHalf]

theorem seal_reference_zeros :
    (Bytes.zeros 64).length = keyMaterialLength ∧
      (∃ ciphertext t, encrypt [1, 2, 3] (Bytes.zeros 64) = .ok (ciphertext ++ t) ∧
        IsReference (Bytes.zeros 64) [1, 2, 3] ciphertext t) ∧
      encrypt (Bytes.zeros (2 ^ 38)) (Bytes.zeros 64) = .error (.cipherFailure .keystream) ∧
      encrypt [1, 2, 3] (Bytes.zeros 32 ++ List.replicate 32 0xaa) =
        encrypt [1, 2, 3] (Bytes.zeros 64) := by
  have hZeros : (Bytes.zeros 64).length = keyMaterialLength := rfl
  obtain ⟨hReference, hLong, hUnused⟩ := seal_reference hZeros
  obtain ⟨c, t, hSeal, hOnly⟩ := hReference [1, 2, 3] (by decide)
  refine ⟨hZeros, ⟨c, t, hSeal, (hOnly c t).2 ⟨rfl, rfl⟩⟩, hLong _ ?_, (hUnused _ rfl rfl _).1⟩
  rw [Bytes.zeros, List.length_replicate]
  decide

end ChaChaPoly

end SshKeys
