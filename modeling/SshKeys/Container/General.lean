import SshKeys.Container.Section
import SshKeys.Detection
import SshKeys.Key.Private
import SshKeys.Pem

/-!
# Containers under other ciphers

Containers under ciphers that are read, but never written.  The text must be in
strict form here, and the fields follow the rules of key material.
-/

namespace SshKeys

/-- How the private section of such a container is decrypted. -/
inductive SectionMode where
  | cbc
  | ctr
  | gcm
  | chacha
  | unsupported
  deriving DecidableEq, Repr

/-- A cipher by its name, with its sizes in bytes. -/
structure SectionCipher where
  name : String
  mode : SectionMode
  keyLength : Nat
  ivLength : Nat
  blockSize : Nat
  tagLength : Nat
  deriving DecidableEq, Repr

namespace SectionCipher

def all : List SectionCipher :=
  [⟨"aes128-cbc", .cbc, 16, 16, 16, 0⟩, ⟨"aes192-cbc", .cbc, 24, 16, 16, 0⟩,
    ⟨"aes256-cbc", .cbc, 32, 16, 16, 0⟩, ⟨"aes128-ctr", .ctr, 16, 16, 16, 0⟩,
    ⟨"aes192-ctr", .ctr, 24, 16, 16, 0⟩, ⟨"aes256-ctr", .ctr, 32, 16, 16, 0⟩,
    ⟨"aes128-gcm@openssh.com", .gcm, 16, 12, 16, 16⟩,
    ⟨"aes256-gcm@openssh.com", .gcm, 32, 12, 16, 16⟩,
    ⟨"chacha20-poly1305@openssh.com", .chacha, 64, 0, 8, 16⟩,
    ⟨"3des-cbc", .unsupported, 24, 8, 8, 0⟩]

/-- The cipher of a name; `none` stands for no cipher. -/
def ofName? (s : String) : Option (Option SectionCipher) :=
  if s = CipherKind.none.name then some none else (all.find? (·.name = s)).map some

/-- The plaintext of a section; none if the tag is wrong or the cipher is not supported. -/
def decrypt? (c : SectionCipher) (key iv ciphertext tag : Bytes) : Option Bytes :=
  let schedule := Aes.schedule key
  match c.mode with
  | .cbc => some (Cbc.decrypt (Aes.decrypt schedule) iv ciphertext)
  | .ctr => some (Ctr.apply (Aes.encrypt schedule) (Bytes.toNat iv) ciphertext)
  | .gcm =>
    if Gcm.tag (Aes.encrypt schedule) iv ciphertext = tag then
      some (Gcm.apply (Aes.encrypt schedule) iv ciphertext)
    else none
  | .chacha =>
    if ChaChaPoly.tag key ciphertext = tag then (ChaChaPoly.apply ciphertext key).toOption else none
  | .unsupported => none

end SectionCipher

/-- A container as the general reader sees it. -/
inductive GeneralContainer where
  | plain (key : PrivateKey)
  | sealed (cipher : SectionCipher) (kdf : Option KdfParameters) (publicKey : PublicKey)
      (ciphertext tag : Bytes)

namespace KeyReader

/-- The name of a key derivation and its options. -/
def kdfOptions : KeyReader (Option KdfParameters) := do
  let isBcrypt ← name fun s =>
    if s = KdfParameters.noneName then some false
    else if s = KdfParameters.bcryptName then some true
    else none
  if isBcrypt then
    nested do
      let salt ← field
      let rounds ← word
      pure (some ⟨salt, UInt32.ofNat rounds⟩)
  else
    let n ← count
    if n = 0 then pure none else throw .algorithm

/-- The private section in the clear: `block` is the size its length is filled up to. -/
def privateSection (key : PublicKey) (block : Nat) : KeyReader PrivateKey := do
  if (← remaining) % block ≠ 0 then throw .length
  let first ← word
  let second ← word
  if first ≠ second then throw .crypto
  let pair ← keyPair
  if pair.publicKey ≠ key then throw .mismatch
  let comment ← text
  let n ← remaining
  if block ≤ n then throw .length
  if n ≠ 0 then
    if (← take n) ≠ Section.padding n then throw .format
  pure ⟨pair, comment, some (UInt32.ofNat first)⟩

def finish : KeyReader Unit := do
  let n ← remaining
  if n ≠ 0 then throw (.trailing n)

def container : KeyReader GeneralContainer := do
  if (← take ContainerHeader.magic.length) ≠ ContainerHeader.magic then throw .format
  let cipher ← name SectionCipher.ofName?
  let kdf ← kdfOptions
  if (← count) ≠ 1 then throw .length
  let key ← nested publicKey
  match cipher with
  | none =>
    if kdf.isSome then throw .crypto
    let k ← nested (privateSection key 8)
    finish
    pure (.plain k)
  | some c =>
    let ciphertext ← field
    if ciphertext.length % c.blockSize ≠ 0 then throw .crypto
    let tag ← if c.tagLength = 0 then pure [] else take c.tagLength
    finish
    pure (.sealed c kdf key ciphertext tag)

end KeyReader

namespace GeneralContainer

/-- Reads the armored text, as far as no passphrase is needed. -/
def parse (text : String) : Except KeyFault GeneralContainer :=
  match Pem.input? Armor.lineWidth "OPENSSH PRIVATE KEY" text with
  | none => .error .armor
  | some input => (KeyReader.container.run input).map (·.1)

/-- The key inside, under a passphrase. -/
def decrypt (c : SectionCipher) (kdf : Option KdfParameters) (key : PublicKey)
    (ciphertext tag passphrase : Bytes) : Except KeyFault PrivateKey :=
  match kdf with
  | none => .error .alreadyDecrypted
  | some kdf =>
    match kdf.derive passphrase (c.keyLength + c.ivLength) with
    | .error _ => .error .crypto
    | .ok material =>
      match c.decrypt? (material.take c.keyLength) (material.drop c.keyLength) ciphertext tag with
      | none => .error .crypto
      | some content => do
        let (k, _) ← (KeyReader.privateSection key c.blockSize).run (.ofBytes content)
        pure k

/-- The key of an armored text. -/
def privateKey (text : String) (passphrase : Option Bytes) : Except Failure PrivateKey :=
  match parse text with
  | .error .algorithm => .error (.unsupportedAlgorithm KeyFault.algorithm.message)
  | .error f => .error (.malformedContainer (.key f))
  | .ok (.plain k) => k.checked
  | .ok (.sealed c kdf key ciphertext tag) =>
    match passphrase with
    | none => .error .passphraseRequired
    | some passphrase =>
      match decrypt c kdf key ciphertext tag passphrase with
      | .error .crypto => .error .decryptionFailed
      | .error f => .error (.unsupportedAlgorithm s!"{c.name}: {f.message}")
      | .ok k => k.checked

end GeneralContainer

end SshKeys
