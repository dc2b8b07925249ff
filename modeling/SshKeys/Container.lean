import SshKeys.Container.Section

/-!
# Containers

`Container.encode` writes a key pair into an armored container and
`Container.decode` reads it back, each under the ciphers of `CipherKind`.
-/

namespace SshKeys

/-- What a container holds. -/
structure Container where
  cipher : CipherKind
  pair : KeyPair
  comment : String
  publicBlob : Bytes

/-- The passphrase, if it is one: the empty text counts as none. -/
def nonEmpty (passphrase : Option String) : Option Bytes :=
  (passphrase.map Bytes.ofString).filter (· ≠ [])

namespace Container

/-- The length of a payload, by the lengths of the public key and of the plaintext. -/
def payloadLength (profile : CipherProfile) (kdf : Option KdfParameters) (publicBlob plain : Nat) :
    Nat :=
  ContainerHeader.magic.length + Field.stringLength profile.name.utf8ByteSize
    + Field.stringLength (KdfParameters.nameOf kdf).utf8ByteSize
    + Field.stringLength (ContainerHeader.putOptions kdf).length + 4
    + Field.stringLength publicBlob + Field.stringLength plain + profile.tagLength

/-- Writes a payload into a buffer with room for all of it.  The private section is sealed by now;
its plaintext had `n` bytes, and behind as many comes the tag. -/
def write (memory : Allocator) (profile : CipherProfile) (kdf : Option KdfParameters)
    (publicBlob : Bytes) (n : Nat) (sealed : Bytes) : Except Failure (Buffer UInt8) := do
  let total := payloadLength profile kdf publicBlob.length n
  memory.ask "container" total
  Field.checkLength publicBlob.length
  if Field.lengthLimit ≤ n then throw (.encodingFailure .sectionLength)
  pure (.writeAll total
    [ContainerHeader.magic, Field.putText profile.name, Field.putText (KdfParameters.nameOf kdf),
      Field.putString (ContainerHeader.putOptions kdf), Bytes.be32 1, Field.putString publicBlob,
      Bytes.be32 (UInt32.ofNat n), sealed])

/-- The payload of a container under a cipher, or in the clear. -/
def payload (memory : Allocator) (pair publicBlob : Bytes) (passphrase : Option String)
    (requested : CipherKind) (comment : Option String) : Random (Buffer UInt8) := do
  match nonEmpty passphrase with
  | some passphrase =>
    let profile := requested.forEncryption.profile
    let kdf ← KdfParameters.generate
    let check ← Random.word
    let plain ← (Section.write memory check pair (comment.getD "") profile.blockSize :
      Except Failure (Buffer UInt8))
    let material ← (kdf.derive passphrase profile.keyMaterialLength : Except Failure Bytes)
    let sealed ← (profile.encrypt plain.written material : Except Failure Bytes)
    (write memory profile (some kdf) publicBlob plain.written.length sealed :
      Except Failure (Buffer UInt8))
  | none =>
    let profile := CipherKind.none.profile
    let check ← Random.word
    let plain ← (Section.write memory check pair (comment.getD "") profile.blockSize :
      Except Failure (Buffer UInt8))
    (write memory profile none publicBlob plain.written.length plain.written :
      Except Failure (Buffer UInt8))

/-- Writes the binary forms of a key into an armored container.  A passphrase turns encryption
on: the salt is drawn first, then the check number. -/
def encodeWith (memory : Allocator) (pair publicBlob : Bytes) (passphrase : Option String)
    (requested : CipherKind) (comment : Option String) : Random String := do
  pure (Armor.wrap (← payload memory pair publicBlob passphrase requested comment).written)

/-- Writes a container where there is memory enough. -/
def encode : Bytes → Bytes → Option String → CipherKind → Option String → Random String :=
  encodeWith .unlimited

/-- The plaintext of the private section under the profile the header names. -/
def openSection (h : ContainerHeader) (profile : CipherProfile) (passphrase : Option String) :
    Except Failure Bytes :=
  if profile.isEncrypted then
    match h.kdf with
    | none => .error (.malformedContainer .noKdf)
    | some kdf =>
      match nonEmpty passphrase with
      | none => .error .passphraseRequired
      | some passphrase => do
        let material ← kdf.derive passphrase profile.keyMaterialLength
        profile.decrypt (h.privateSection ++ h.tag) material
  else .ok h.privateSection

/-- Reads a container whose header has been read. -/
def ofHeader (h : ContainerHeader) (passphrase : Option String) : Except Failure Container :=
  match CipherProfile.byName? h.cipherName with
  | none => .error (.unsupportedAlgorithm s!"cipher {h.cipherName}")
  | some profile => do
    let n := h.privateSection.length
    if n = 0 ∨ n % profile.blockSize ≠ 0 then
      throw (.malformedContainer (.sectionLength n profile.blockSize))
    if h.tag.length ≠ profile.tagLength then
      throw (.malformedContainer (.tagLength profile.tagLength h.tag.length))
    let plain ← openSection h profile passphrase
    let content ← (Section.parse h profile plain).1
    pure ⟨profile.kind, content.pair, content.comment, h.publicBlob⟩

/-- Reads an armored container. -/
def decode (text : String) (passphrase : Option String) : Except Failure Container := do
  ofHeader (← ContainerHeader.parse text) passphrase

/-- The name of the cipher in diagnostic lines. -/
def cipherLabel : CipherKind → String
  | .none => "None"
  | .aes256Ctr => "Aes256Ctr"
  | .chacha20Poly1305 => "ChaCha20Poly1305"

/-- A diagnostic line that shows nothing of the key. -/
def describe (c : Container) : String :=
  "DecodedContainer \x7b cipher: " ++ cipherLabel c.cipher ++ ", comment: "
    ++ Text.quoted c.comment ++ ", .. \x7d"

end Container

end SshKeys
