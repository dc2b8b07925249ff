import SshKeys.Cipher.Modes
import SshKeys.Der
import SshKeys.Kdf.Scrypt

/-!
# Encrypted documents

The envelope of RFC 8018, section 6.2: a key derived from a passphrase by PBKDF2
or scrypt, and a document encrypted with AES in cipher block chaining.  The older
schemes of section 6.1 are recognized.
-/

namespace SshKeys

/-- The hash functions an envelope may name; the oldest is known, but not supported. -/
inductive Prf where
  | sha1
  | sha2 (h : Sha2)
  deriving DecidableEq

/-- How the key of an envelope is derived. -/
inductive EnvelopeKdf where
  | pbkdf2 (salt : Bytes) (rounds : Nat) (length : Option Nat) (prf : Prf)
  | scrypt (salt : Bytes) (cost r lanes : Nat) (length : Option Nat)
  deriving DecidableEq

/-- How the document in an envelope is encrypted. -/
inductive EnvelopeScheme where
  /-- The older schemes, which are known, but not supported. -/
  | pbes1
  /-- A derived key of so many bytes for AES, and its initial vector. -/
  | pbes2 (kdf : EnvelopeKdf) (keyLength : Nat) (iv : Bytes)
  deriving DecidableEq

structure Envelope where
  scheme : EnvelopeScheme
  ciphertext : Bytes
  deriving DecidableEq

/-! ## Names of algorithms -/

namespace ObjectId

/-- The names of RFC 8018, told apart by their last arc. -/
def passwordBased (last : UInt8) : Bytes := [0x2a, 0x86, 0x48, 0x86, 0xf7, 0x0d, 0x01, 0x05, last]

/-- The older schemes: three hash functions, each with DES and with RC2. -/
def pbes1 : List Bytes := [1, 3, 4, 6, 10, 11].map passwordBased

def pbes2 : Bytes := passwordBased 13

def pbkdf2 : Bytes := passwordBased 12

def scrypt : Bytes := [0x2b, 0x06, 0x01, 0x04, 0x01, 0xda, 0x47, 0x04, 0x0b]

/-- The keyed hash functions, told apart by their last arc. -/
def hmac (last : UInt8) : Bytes := [0x2a, 0x86, 0x48, 0x86, 0xf7, 0x0d, 0x02, last]

/-- AES in cipher block chaining; the last arc tells the length of the key. -/
def aesCbc (last : UInt8) : Bytes := [0x60, 0x86, 0x48, 0x01, 0x65, 0x03, 0x04, 0x01, last]

end ObjectId

namespace Prf

def all : List (Bytes × Prf) :=
  [(ObjectId.hmac 7, sha1), (ObjectId.hmac 8, sha2 .bits224), (ObjectId.hmac 9, sha2 .bits256),
    (ObjectId.hmac 10, sha2 .bits384), (ObjectId.hmac 11, sha2 .bits512)]

/-- The function an identifier names; its parameters must be null. -/
def ofId? (a : Der.AlgorithmId) : Option Prf := do
  guard (a.parameters = some (Der.nullTag, []))
  all.lookup a.name

end Prf

namespace EnvelopeKdf

/-- A length that may be missing. -/
def lengthField : Der.Reader (Option Nat) :=
  Der.optional Der.integerTag (Der.natWithin 2)

def pbkdf2Reader : Der.Reader EnvelopeKdf := do
  let salt ← Der.octets
  let rounds ← Der.natWithin 4
  let length ← lengthField
  match ← Der.optional Der.sequenceTag Der.algorithmId with
  | none => pure (.pbkdf2 salt rounds length .sha1)
  | some a => do
    let prf ← (Prf.ofId? a : Option Prf)
    pure (.pbkdf2 salt rounds length prf)

def scryptReader : Der.Reader EnvelopeKdf := do
  let salt ← Der.octets
  let cost ← Der.natWithin 8
  let r ← Der.natWithin 2
  let lanes ← Der.natWithin 2
  pure (.scrypt salt cost r lanes (← lengthField))

def ofId? (a : Der.AlgorithmId) : Option EnvelopeKdf :=
  if a.name = ObjectId.pbkdf2 then Der.sequenceOf pbkdf2Reader a.parameters
  else if a.name = ObjectId.scrypt then Der.sequenceOf scryptReader a.parameters
  else none

def length? : EnvelopeKdf → Option Nat
  | pbkdf2 _ _ length _ => length
  | scrypt _ _ _ _ length => length

/-- The bounds scrypt sets for its parameters. -/
def areScryptParameters (cost r lanes : Nat) : Bool :=
  0 < r && 0 < lanes && 0 < cost && 1 <<< cost.log2 = cost && cost.log2 < 16 * r
    && 128 * r * cost < UInt64.size && r * lanes < 1 <<< 30

/-- A key of `n` bytes, if the parameters allow one. -/
def key? (kdf : EnvelopeKdf) (passphrase : Bytes) (n : Nat) : Option Bytes := do
  guard ((kdf.length?.getD n) = n)
  match kdf with
  | pbkdf2 salt rounds _ (.sha2 h) => some (Pbkdf2.derive h passphrase salt rounds n)
  | pbkdf2 _ _ _ .sha1 => none
  | scrypt salt cost r lanes _ =>
    guard (areScryptParameters cost r lanes)
    pure (Scrypt.derive passphrase salt cost r lanes n)

end EnvelopeKdf

namespace Envelope

def label : String := "ENCRYPTED PRIVATE KEY"

/-- The ciphers with the lengths of their keys. -/
def ciphers : List (Bytes × Nat) :=
  [(ObjectId.aesCbc 2, 16), (ObjectId.aesCbc 22, 24), (ObjectId.aesCbc 42, 32)]

def pbes2Reader : Der.Reader EnvelopeScheme := do
  let kdf ← Der.algorithmId
  let cipher ← Der.algorithmId
  let kdf ← (EnvelopeKdf.ofId? kdf : Option _)
  let (tag, iv) ← (cipher.parameters : Option _)
  guard (tag = Der.octetStringTag ∧ iv.length = 16)
  let length ← (ciphers.lookup cipher.name : Option _)
  pure (.pbes2 kdf length iv)

/-- The parameters of the older schemes: a salt of eight bytes and a count. -/
def pbes1Reader : Der.Reader EnvelopeScheme := do
  let salt ← Der.octets
  guard (salt.length = 8)
  let _ ← Der.natWithin 2
  pure .pbes1

def scheme? (a : Der.AlgorithmId) : Option EnvelopeScheme :=
  if a.name = ObjectId.pbes2 then Der.sequenceOf pbes2Reader a.parameters
  else if a.name ∈ ObjectId.pbes1 then Der.sequenceOf pbes1Reader a.parameters
  else none

def reader : Der.Reader Envelope :=
  Der.sequence do
    let a ← Der.algorithmId
    let scheme ← (scheme? a : Option _)
    pure ⟨scheme, ← Der.octets⟩

def read? (document : Bytes) : Option Envelope :=
  Der.whole reader document

/-- The document inside, if the passphrase seems to be the right one. -/
def decrypt? (e : Envelope) (passphrase : Bytes) : Option Bytes :=
  match e.scheme with
  | .pbes1 => none
  | .pbes2 kdf keyLength iv => do
    let key ← kdf.key? passphrase keyLength
    guard (e.ciphertext.length % 16 = 0)
    Cbc.unpad? (Cbc.decrypt (Aes.decrypt (Aes.schedule key)) iv e.ciphertext)

end Envelope

end SshKeys
