import SshKeys.Choice
import SshKeys.Cipher.ChaCha20
import SshKeys.Cipher.Modes
import SshKeys.Cipher.Poly1305
import SshKeys.Failure

/-!
# Cipher profiles

The ciphers containers are written under, with the sizes that go with them.
Encryption and decryption take all key material at once, key before initial vector.
-/

namespace SshKeys

/-- The sizes of a cipher, in bytes. -/
structure CipherProfile where
  kind : CipherKind
  name : String
  blockSize : Nat
  keyLength : Nat
  ivLength : Nat
  tagLength : Nat
  deriving DecidableEq, Repr

namespace CipherKind

def profile : CipherKind → CipherProfile
  | none => ⟨.none, "none", 8, 0, 0, 0⟩
  | aes256Ctr => ⟨.aes256Ctr, "aes256-ctr", 16, 32, 16, 0⟩
  | chacha20Poly1305 => ⟨.chacha20Poly1305, "chacha20-poly1305@openssh.com", 8, 64, 0, 16⟩

/-- The name inside a container. -/
def name (c : CipherKind) : String :=
  c.profile.name

end CipherKind

namespace AesCtr

/-- AES-256 in counter mode; sealing and opening are the same. -/
def apply (data key iv : Bytes) : Except Failure Bytes :=
  if key.length = 32 ∧ iv.length = 16 then
    .ok (Ctr.apply (Aes.encrypt (Aes.schedule key)) (Bytes.toNat iv) data)
  else .error (.cipherFailure (.aesSizes key.length iv.length 32 16))

end AesCtr

namespace ChaChaPoly

def keyMaterialLength : Nat := 64

def tagLength : Nat := 16

/-- The keystream from counter zero under the first half of the key material. -/
def keystream (material : Bytes) (blocks : Nat) : Bytes :=
  ChaCha20.keystream (material.take 32) (Bytes.zeros 12) blocks

/-- The authenticator is keyed by the first block of the keystream. -/
def tag (material ciphertext : Bytes) : Bytes :=
  Poly1305.tag ((keystream material 1).take 32) ciphertext

/-- The payload uses the keystream from its second block on. -/
def mask (material data : Bytes) : Bytes :=
  Bytes.xor data ((keystream material (1 + (data.length + 63) / 64)).drop 64)

def checkMaterial (material : Bytes) : Except Failure Unit :=
  if material.length = keyMaterialLength then .ok ()
  else .error (.cipherFailure (.keyMaterial "chacha20-poly1305" keyMaterialLength material.length))

/-- Whether the keystream lasts for a text of `n` bytes. -/
def Lasts (n : Nat) : Prop :=
  1 + (n + 63) / 64 ≤ ChaCha20.blockLimit

instance (n : Nat) : Decidable (Lasts n) :=
  inferInstanceAs (Decidable (_ ≤ _))

/-- Masks a text; sealing and opening are the same. -/
def apply (data material : Bytes) : Except Failure Bytes :=
  if Lasts data.length then .ok (mask material data) else .error (.cipherFailure .keystream)

/-- The ciphertext and its tag. -/
def encrypt (data material : Bytes) : Except Failure Bytes := do
  checkMaterial material
  let c ← apply data material
  pure (c ++ tag material c)

/-- Checks the tag before anything is decrypted. -/
def decrypt (sealed material : Bytes) : Except Failure Bytes :=
  if sealed.length < tagLength then .error (.malformedContainer .shortSeal)
  else do
    checkMaterial material
    let c := sealed.take (sealed.length - tagLength)
    if tag material c = sealed.drop (sealed.length - tagLength) then apply c material
    else throw .decryptionFailed

end ChaChaPoly

namespace CipherProfile

/-- The profile of a name inside a container. -/
def byName? (name : String) : Option CipherProfile :=
  (CipherKind.all.map CipherKind.profile).find? fun p => p.name == name

def isEncrypted (p : CipherProfile) : Bool :=
  p.kind ≠ .none

def keyMaterialLength (p : CipherProfile) : Nat :=
  p.keyLength + p.ivLength

def checkMaterial (p : CipherProfile) (material : Bytes) : Except Failure Unit :=
  if material.length = p.keyMaterialLength then .ok ()
  else .error (.cipherFailure (.keyMaterial p.name p.keyMaterialLength material.length))

/-- Encrypts a text; a tag, if the cipher has one, stands behind it. -/
def encrypt (p : CipherProfile) (data material : Bytes) : Except Failure Bytes := do
  p.checkMaterial material
  match p.kind with
  | .none => pure data
  | .aes256Ctr => AesCtr.apply data (material.take p.keyLength) (material.drop p.keyLength)
  | .chacha20Poly1305 => ChaChaPoly.encrypt data material

/-- Undoes `encrypt`. -/
def decrypt (p : CipherProfile) (sealed material : Bytes) : Except Failure Bytes := do
  p.checkMaterial material
  match p.kind with
  | .none => pure sealed
  | .aes256Ctr => AesCtr.apply sealed (material.take p.keyLength) (material.drop p.keyLength)
  | .chacha20Poly1305 => ChaChaPoly.decrypt sealed material

end CipherProfile

end SshKeys
