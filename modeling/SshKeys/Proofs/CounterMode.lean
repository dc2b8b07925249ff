import SshKeys.Proofs.Cipher

/-!
# Counter mode, block by block

The initial vector is a number of 128 bits, most significant byte first, and the
keystream is made of the encrypted numbers from it on.  After the last number comes
zero, so a carry may run through all sixteen bytes.

* `AesCtr.getElem?_encipher`: **byte `i` of a ciphertext is byte `i` of the text, added to
  `streamByte`**, which knows the key, the initial vector and `i` only.
* `AesCtr.encipher_append`: behind whole blocks a text goes on as one of its own, under the
  initial vector that many numbers further on.
* `AesCtr.counter_mode` collects what follows for encryption and decryption.
-/

namespace SshKeys.AesCtr

/-- The initial vector `n` blocks further on. -/
def advance (iv : Bytes) (n : Nat) : Bytes :=
  Bytes.ofNat 16 ((Bytes.toNat iv + n) % 2 ^ 128)

/-- Byte `i` of the keystream: its block is the encrypted number of this block. -/
def streamByte (key iv : Bytes) (i : Nat) : UInt8 :=
  (Aes.encrypt (Aes.schedule key) (advance iv (i / 16))).getD (i % 16) 0

/-- The text added to the keystream. -/
def encipher (key iv data : Bytes) : Bytes :=
  Ctr.apply (Aes.encrypt (Aes.schedule key)) (Bytes.toNat iv) data

variable {key iv : Bytes}

/-- A counter is written in sixteen bytes, so what it carries beyond them is lost. -/
theorem advance_eq (iv : Bytes) (n : Nat) : advance iv n = Bytes.ofNat 16 (Bytes.toNat iv + n) :=
  Bytes.ofNat_mod 16 _

theorem advance_advance (iv : Bytes) (m n : Nat) :
    advance (advance iv m) n = advance iv (m + n) := by
  rw [advance_eq, advance_eq iv m, Bytes.toNat_ofNat_mod, ← Bytes.ofNat_mod, Nat.mod_add_mod,
    Bytes.ofNat_mod, Nat.add_assoc, advance_eq]

/-- Whole blocks further on, the keystream is that of the initial vector advanced by them. -/
theorem streamByte_advance (key iv : Bytes) (n i : Nat) :
    streamByte key (advance iv n) i = streamByte key iv (16 * n + i) := by
  rw [streamByte, streamByte, advance_advance, Nat.mul_add_div (by decide), Nat.mul_add_mod]

theorem getElem?_keystream (key iv : Bytes) {blocks i : Nat} (hi : i < blocks * 16) :
    (Ctr.keystream (Aes.encrypt (Aes.schedule key)) (Bytes.toNat iv) blocks)[i]? =
      some (streamByte key iv i) := by
  have hBlock : i / 16 < blocks := by omega
  have hPlace : i % 16 < (Aes.encrypt (Aes.schedule key)
      (Bytes.ofNat 16 (Bytes.toNat iv + i / 16))).length := Nat.mod_lt _ (by decide)
  rw [Ctr.keystream, getElem?_flatMap_of_length (by decide : 0 < 16) (fun _ => rfl),
    List.getElem?_range hBlock, Option.bind_some, streamByte, advance_eq,
    List.getD_eq_getElem?_getD, List.getElem?_eq_getElem hPlace, Option.getD_some]

/-! ## Texts -/

theorem apply_eq (hKey : key.length = 32) (hIv : iv.length = 16) (data : Bytes) :
    apply data key iv = .ok (encipher key iv data) :=
  if_pos ⟨hKey, hIv⟩

/-- Key material is the key and then the initial vector. -/
theorem mask_append (hKey : key.length = 32) (iv data : Bytes) :
    mask (key ++ iv) data = encipher key iv data := by
  rw [mask, List.take_left' hKey, List.drop_left' hKey, encipher]

theorem length_advance (iv : Bytes) (n : Nat) : (advance iv n).length = 16 :=
  Bytes.length_ofNat ..

theorem length_encipher (key iv data : Bytes) : (encipher key iv data).length = data.length :=
  Ctr.length_apply (Aes.length_encrypt _) _ data

theorem encipher_encipher (key iv data : Bytes) : encipher key iv (encipher key iv data) = data :=
  Ctr.apply_apply (Aes.length_encrypt _) _ data

theorem getElem?_encipher (key iv data : Bytes) (i : Nat) :
    (encipher key iv data)[i]? = data[i]?.map (· ^^^ streamByte key iv i) := by
  rw [encipher, Ctr.apply, Bytes.xor, List.getElem?_zipWith]
  by_cases hi : i < data.length
  · rw [getElem?_keystream key iv (by omega), List.getElem?_eq_getElem hi]
    rfl
  · rw [List.getElem?_eq_none (by omega)]
    rfl

/-- A text that is cut off loses its own bytes only. -/
theorem encipher_take (key iv data : Bytes) (n : Nat) :
    encipher key iv (data.take n) = (encipher key iv data).take n := by
  apply List.ext_getElem?
  intro i
  rw [getElem?_encipher, List.getElem?_take, List.getElem?_take, getElem?_encipher]
  split <;> rfl

theorem encipher_append (key iv : Bytes) {a : Bytes} (h : a.length % 16 = 0) (b : Bytes) :
    encipher key iv (a ++ b) =
      encipher key iv a ++ encipher key (advance iv (a.length / 16)) b := by
  apply List.ext_getElem?
  intro i
  by_cases hi : i < a.length
  · rw [List.getElem?_append_left (by rwa [length_encipher]), getElem?_encipher,
      getElem?_encipher, List.getElem?_append_left hi]
  · obtain ⟨j, rfl⟩ := Nat.exists_eq_add_of_le (Nat.le_of_not_lt hi)
    have hBlocks : 16 * (a.length / 16) = a.length := by omega
    rw [List.getElem?_append_right (by rw [length_encipher]; omega), getElem?_encipher,
      getElem?_encipher, List.getElem?_append_right (by omega), length_encipher,
      Nat.add_sub_cancel_left, streamByte_advance, hBlocks]

/-! ## The cipher -/

/-- **Counter mode under a key of 32 bytes and an initial vector of 16.**  Every text has a
ciphertext, of its own length: byte `i` of it is byte `i` of the text and byte `i` of the
keystream.  Doing it again gives the text back, and a text that is cut off has its
ciphertext cut off.  Behind whole blocks a text goes on under the initial vector as many
numbers further on, with carries through all sixteen bytes.  A container seals and opens with
this one function, under the key and then the initial vector. -/
theorem counter_mode (hKey : key.length = 32) (hIv : iv.length = 16) :
    (∀ data, ∃ ciphertext, apply data key iv = .ok ciphertext ∧
      ciphertext.length = data.length ∧
      (∀ i, ciphertext[i]? = data[i]?.map (· ^^^ streamByte key iv i)) ∧
      apply ciphertext key iv = .ok data ∧
      ∀ n, apply (data.take n) key iv = .ok (ciphertext.take n)) ∧
    (∀ a b : Bytes, a.length % 16 = 0 → ∃ x y, apply a key iv = .ok x ∧
      apply b key (advance iv (a.length / 16)) = .ok y ∧ apply (a ++ b) key iv = .ok (x ++ y)) ∧
    ∀ data, CipherKind.aes256Ctr.profile.encrypt data (key ++ iv) = apply data key iv ∧
      CipherKind.aes256Ctr.profile.decrypt data (key ++ iv) = apply data key iv := by
  refine ⟨?_, ?_, ?_⟩
  · intro data
    refine ⟨_, apply_eq hKey hIv data, length_encipher key iv data, getElem?_encipher key iv data,
      ?_, ?_⟩
    · rw [apply_eq hKey hIv, encipher_encipher]
    · intro n
      rw [apply_eq hKey hIv, encipher_take]
  · intro a b hBlocks
    refine ⟨_, _, apply_eq hKey hIv a, apply_eq hKey (length_advance ..) b, ?_⟩
    rw [apply_eq hKey hIv, encipher_append key iv hBlocks]
  · intro data
    have hMaterial : (key ++ iv).length = CipherKind.aes256Ctr.profile.keyMaterialLength := by
      rw [List.length_append, hKey, hIv]
      rfl
    have hLasts : CipherKind.aes256Ctr.Lasts data.length := CipherKind.lasts_of_ne (by decide) _
    rw [CipherProfile.encrypt_eq hMaterial hLasts, CipherProfile.decrypt_aes hMaterial,
      CipherKind.sealed, mask_append hKey, apply_eq hKey hIv]
    exact ⟨rfl, rfl⟩

/-- The last number of all is followed by zero: one block behind sixteen bytes `0xff` stands
the initial vector of sixteen zeros. -/
theorem counter_mode_wrapping :
    let key := Bytes.zeros 32
    let last : Bytes := List.replicate 16 0xff
    advance last 1 = Bytes.zeros 16 ∧
      ∃ x y, apply (Bytes.zeros 16) key last = .ok x ∧
        apply [1, 2, 3] key (Bytes.zeros 16) = .ok y ∧
        apply (Bytes.zeros 16 ++ [1, 2, 3]) key last = .ok (x ++ y) := by
  have hAdvance : advance (List.replicate 16 0xff) 1 = Bytes.zeros 16 := by decide
  refine ⟨hAdvance, ?_⟩
  have h := (counter_mode (by rfl : (Bytes.zeros 32).length = 32)
    (by rfl : (List.replicate 16 (0xff : UInt8)).length = 16)).2.1 (Bytes.zeros 16) [1, 2, 3] rfl
  rwa [show (Bytes.zeros 16).length / 16 = 1 from rfl, hAdvance] at h

end SshKeys.AesCtr
