import SshKeys.Container.Header
import SshKeys.Key.Pair

/-!
# The private section of a container

Its plaintext is a check number, written twice, the key pair, the comment, and
bytes counting up from one that fill the last block.
-/

namespace SshKeys.Section

/-- How many bytes fill `n` bytes up to whole blocks. -/
def paddingLength (n block : Nat) : Nat :=
  (block - n % block) % block

def padding (n : Nat) : Bytes :=
  (List.range n).map fun i => UInt8.ofNat (i + 1)

/-- The section without its padding. -/
def content (check : UInt32) (pair : Bytes) (comment : String) : Bytes :=
  Bytes.be32 check ++ Bytes.be32 check ++ pair ++ Field.putText comment

/-- The plaintext of the section. -/
def build (check : UInt32) (pair : Bytes) (comment : String) (block : Nat) : Bytes :=
  let c := content check pair comment
  c ++ padding (paddingLength c.length block)

/-- The length of the plaintext. -/
def length (pair comment block : Nat) : Nat :=
  let n := 8 + pair + Field.stringLength comment
  n + paddingLength n block

/-- Writes the plaintext into a buffer with room for all of it. -/
def write (memory : Allocator) (check : UInt32) (pair : Bytes) (comment : String) (block : Nat) :
    Except Failure (Buffer UInt8) := do
  let n := length pair.length comment.utf8ByteSize block
  let unpadded := 8 + pair.length + Field.stringLength comment.utf8ByteSize
  memory.ask "private section" n
  Field.checkLength comment.utf8ByteSize
  pure (.writeAll n
    [Bytes.be32 check, Bytes.be32 check, pair, Field.putText comment,
      padding (paddingLength unpadded block)])

/-- What a private section holds. -/
structure Content where
  pair : KeyPair
  comment : String

/-- Reads the plaintext of a section.  Under a cipher, check numbers that differ mean a wrong
passphrase. -/
def parse (h : ContainerHeader) (profile : CipherProfile) : ExceptT Failure (StateM Bytes) Content := do
  let first ← ContainerHeader.field Field.word
  let second ← ContainerHeader.field Field.word
  if first ≠ second then
    throw (if profile.isEncrypted then .decryptionFailed else .malformedContainer .checkNumbers)
  let rest ← get
  match KeyPair.read rest with
  | .error f => throw (.malformedContainer (.keyPair f))
  | .ok (pair, rest) =>
    set rest
    let key ← (h.publicKey : Except Failure PublicKey)
    if pair.publicKey ≠ key then throw (.malformedContainer .keyMismatch)
    let comment ← ContainerHeader.field Field.text
    let rest ← get
    if profile.blockSize ≤ rest.length ∨ rest ≠ padding rest.length then
      throw (.malformedContainer .padding)
    pure ⟨pair, comment⟩

end SshKeys.Section
