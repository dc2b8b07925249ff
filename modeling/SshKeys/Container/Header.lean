import SshKeys.Cipher.Profile
import SshKeys.Container.Armor
import SshKeys.Kdf.Parameters
import SshKeys.Key.Public
import SshKeys.Text.Quoted

/-!
# The clear part of a container

A container is the magic, the names of cipher and key derivation, the options of
the derivation, the number of keys, the public key, the private section and,
for some ciphers, a tag.  Everything up to the private section is readable
without a passphrase.
-/

namespace SshKeys

structure ContainerHeader where
  cipherName : String
  kdfName : String
  kdf : Option KdfParameters
  publicBlob : Bytes
  privateSection : Bytes
  tag : Bytes
  deriving DecidableEq, Repr

namespace ContainerHeader

def magic : Bytes := Bytes.ofString "openssh-key-v1" ++ [0]

/-- The written form of the options of bcrypt. -/
def putKdfOptions (k : KdfParameters) : Bytes :=
  Field.putString k.salt ++ Bytes.be32 k.rounds

/-- Takes a reader of fields to one that fails with a `Failure`. -/
def field {α : Type} (r : Field.Reader α) : ExceptT Failure (StateM Bytes) α := fun input =>
  match r input with
  | (.ok a, rest) => (.ok a, rest)
  | (.error f, rest) => (.error (.malformedContainer (.field f)), rest)

/-- The options of a key derivation, within the bounds set for untrusted files. -/
def kdfOptions (name : String) (options : Bytes) : Except Failure (Option KdfParameters) :=
  if name = KdfParameters.noneName then
    if options = [] then .ok none else .error (.malformedContainer .kdfNoneOptions)
  else if name = KdfParameters.bcryptName then
    let parse : ExceptT Failure (StateM Bytes) (Bytes × UInt32) := do
      let salt ← field Field.string
      let rounds ← field Field.word
      pure (salt, rounds)
    match parse options with
    | (.error e, _) => .error e
    | (.ok (salt, rounds), rest) =>
      if rest ≠ [] then .error (.malformedContainer .kdfOptionsTrailing)
      else if rounds.toNat < 1 ∨ KdfParameters.maxRounds < rounds.toNat then
        .error (.malformedContainer (.kdfRounds rounds.toNat 1 KdfParameters.maxRounds))
      else if salt.length < 1 ∨ KdfParameters.maxSaltLength < salt.length then
        .error (.malformedContainer (.kdfSaltLength salt.length))
      else .ok (some ⟨salt, rounds⟩)
  else .error (.unsupportedAlgorithm s!"kdf {name}")

/-- The fields of a payload up to the private section; what is left is the tag. -/
def fields : ExceptT Failure (StateM Bytes) ContainerHeader := do
  let m ← field (Field.bytes magic.length)
  if m ≠ magic then throw (.malformedContainer .noMagic)
  let cipherName ← field Field.text
  if cipherName.isEmpty then throw (.malformedContainer .emptyCipherName)
  let kdfName ← field Field.text
  let options ← field Field.string
  let kdf ← (kdfOptions kdfName options : Except Failure _)
  let count ← field Field.word
  if count ≠ 1 then throw (.malformedContainer (.keyCount count.toNat))
  let publicBlob ← field Field.string
  let privateSection ← field Field.string
  let tag ← get
  pure ⟨cipherName, kdfName, kdf, publicBlob, privateSection, tag⟩

def ofPayload (payload : Bytes) : Except Failure ContainerHeader :=
  (fields payload).1

/-- Reads an armored text. -/
def parse (text : String) : Except Failure ContainerHeader := do
  ofPayload (← Armor.unwrap text)

def isEncrypted (h : ContainerHeader) : Bool :=
  h.cipherName ≠ CipherKind.none.name

def publicKey (h : ContainerHeader) : Except Failure PublicKey :=
  match PublicKey.ofBlob h.publicBlob with
  | .ok k => .ok k
  | .error f => .error (.malformedContainer (.publicKey f))

/-- The options as they are written; there are none without a key derivation. -/
def putOptions (kdf : Option KdfParameters) : Bytes :=
  match kdf with
  | some k => putKdfOptions k
  | none => []

/-- The payload a header was read from. -/
def payload (h : ContainerHeader) : Bytes :=
  magic ++ Field.putText h.cipherName ++ Field.putText h.kdfName
    ++ Field.putString (putOptions h.kdf) ++ Bytes.be32 1 ++ Field.putString h.publicBlob
    ++ Field.putString h.privateSection ++ h.tag

/-- A list of byte values between brackets. -/
def showBytes (b : Bytes) : String :=
  "[" ++ String.intercalate ", " (b.map fun x => toString x.toNat) ++ "]"

def showKdf : Option KdfParameters → String
  | none => "None"
  | some k =>
    "Some(KdfParameters \x7b salt: " ++ showBytes k.salt ++ ", rounds: "
      ++ toString k.rounds.toNat ++ " \x7d)"

/-- A diagnostic line that shows nothing of the private section but its length. -/
def describe (h : ContainerHeader) : String :=
  "ContainerHeader \x7b cipher_name: " ++ Text.quoted h.cipherName ++ ", kdf_name: "
    ++ Text.quoted h.kdfName ++ ", kdf: " ++ showKdf h.kdf ++ ", private_section_len: "
    ++ toString h.privateSection.length ++ ", .. \x7d"

end ContainerHeader

end SshKeys
