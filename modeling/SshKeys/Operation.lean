import SshKeys.Container
import SshKeys.Container.General
import SshKeys.Document.Export
import SshKeys.Document.Import

/-!
# Operations on keys

Generating, importing, converting and inspecting keys.  Each takes all its input
as arguments; only what has to be random is drawn.
-/

namespace SshKeys

/-! ## Loading -/

/-- The private key of a text in any format.  A container is read by `Container.decode` if its
cipher is one that is also written, and by `GeneralContainer.privateKey` otherwise. -/
def PrivateKey.load (text : String) (passphrase : Option String) : Except Failure PrivateKey := do
  let text := Text.trim text
  let passphrase := passphrase.filter (· ≠ "")
  let format := KeyFormat.ofText text
  let detection ← Detection.ofText format text
  if detection.passphraseRequired ∧ passphrase.isNone then throw .passphraseRequired
  match format with
  | .openssh =>
    match detection.declaredName.bind CipherProfile.byName? with
    | some _ =>
      let c ← Container.decode text passphrase
      PrivateKey.ofPair c.pair c.comment
    | none => GeneralContainer.privateKey text (passphrase.map Bytes.ofString)
  | .pem | .pkcs8 =>
    (← PemFile.privateKey format text passphrase).checked

/-! ## Generating -/

/-- The bounds on the size of a new RSA key. -/
def minRsaBits : Nat := 2048

def maxRsaBits : Nat := 16384

def defaultRsaBits : Nat := 3072

/-- A random scalar of a curve: candidates of the width of a coordinate are drawn until one is in
range; `fuel` bounds their number. -/
def NistCurve.randomScalar (curve : NistCurve) : (fuel : Nat) → Random Nat
  | 0 => Random.exhausted
  | fuel + 1 => do
    let d := Bytes.toNat (← Random.bytes curve.fieldSize)
    if curve.IsScalar d then pure d else curve.randomScalar fuel

namespace KeyPair

/-- A new pair on a curve.  Each candidate takes bytes from the source, so its length bounds how
many there are. -/
def generateOn (curve : NistCurve) : Random KeyPair := do
  let source ← get
  pure (ofScalar curve (← curve.randomScalar (source.length + 1)))

def generateRsa (bits : Nat) : Random KeyPair := do
  let first := Bytes.toNat (← Random.bytes (bits / 16 + 1))
  let second := Bytes.toNat (← Random.bytes (bits / 16 + 1))
  match Rsa.ofRandom bits first second >>= RsaPair.ofNumbers? with
  | some pair => pure (rsa pair)
  | none => throw (.randomSourceFailure "no prime found")

/-- A new pair; `rsaBits` counts for RSA only. -/
def generate (algorithm : KeyAlgorithm) (rsaBits : Nat) : Random KeyPair :=
  match algorithm with
  | .rsa =>
    if rsaBits < minRsaBits ∨ maxRsaBits < rsaBits then
      throw (.invalidInput (.rsaSize minRsaBits maxRsaBits))
    else generateRsa rsaBits
  | .ed25519 => do pure (ofSeed (← Random.bytes 32))
  | .ecdsaP256 => generateOn .p256
  | .ecdsaP384 => generateOn .p384
  | .ecdsaP521 => generateOn .p521

end KeyPair

def PrivateKey.generate (algorithm : KeyAlgorithm) (rsaBits : Nat) : Random PrivateKey := do
  PrivateKey.ofPair (← KeyPair.generate algorithm rsaBits) ""

/-! ## Writing out -/

/-- How a private key is to be written out. -/
structure ExportOptions where
  format : KeyFormat := .openssh
  /-- An empty passphrase counts as none. -/
  passphrase : Option String := none
  cipher : CipherKind := .aes256Ctr
  /-- Replaces the comment of the key. -/
  comment : Option String := none
  deriving DecidableEq, Repr

namespace ExportOptions

def activePassphrase (o : ExportOptions) : Option String :=
  o.passphrase.filter (· ≠ "")

/-- Only containers can be encrypted. -/
def unsupported (format : KeyFormat) : Failure :=
  .unsupportedCombination s!"защита парольной фразой для формата {format.name} не поддерживается"

def validate (o : ExportOptions) : Except Failure Unit :=
  if o.activePassphrase.isSome ∧ o.format ≠ .openssh then .error (unsupported o.format)
  else .ok ()

end ExportOptions

/-- A private key as it was written out. -/
structure ExportedKey where
  text : String
  format : KeyFormat
  cipher : CipherKind
  info : PublicKeyInfo
  deriving DecidableEq

/-- The text of a key under options, and the cipher it is sealed with. -/
def PrivateKey.write (k : PrivateKey) (o : ExportOptions) : Random (String × CipherKind) :=
  match o.format, o.activePassphrase with
  | .openssh, some passphrase => do
    let cipher := o.cipher.forEncryption
    let text ← Container.encode k.pair.write.written k.publicKey.blob (some passphrase) cipher
      (some k.comment)
    pure (text, cipher)
  | .openssh, none => do
    k.checkContainer
    pure (k.toContainer, .none)
  | .pem, none => do pure (← k.pair.toPem, .none)
  | .pkcs8, none => do pure (← k.pair.toPkcs8, .none)
  -- Options that were validated do not come here.
  | format, some _ => throw (ExportOptions.unsupported format)

def PrivateKey.exportWith (k : PrivateKey) (o : ExportOptions) : Random ExportedKey := do
  let k := k.withComment (o.comment.getD k.comment)
  let (text, cipher) ← k.write o
  pure ⟨text, o.format, cipher, ← k.info⟩

/-- Generates a key and writes it out. -/
def generate (algorithm : KeyAlgorithm) (rsaBits : Nat) (o : ExportOptions) :
    Random ExportedKey := do
  o.validate
  (← PrivateKey.generate algorithm rsaBits).exportWith o

/-- Loads a key with its current passphrase and writes it out anew. -/
def convert (text : String) (passphrase : Option String) (o : ExportOptions) :
    Random ExportedKey := do
  o.validate
  (← PrivateKey.load text passphrase).exportWith o

/-! ## Reports -/

structure ImportReport where
  isPrivate : Bool
  passphraseProtected : Bool
  format : Option KeyFormat
  cipher : CipherKind
  info : PublicKeyInfo
  /-- The text of a private key without the blanks around it. -/
  privateText : Option String
  deriving DecidableEq

/-- Reads a key of either kind.  A comment that is not blank replaces the one of the key. -/
def importKey (text : String) (passphrase comment : Option String) :
    Except Failure ImportReport := do
  let text := Text.trim text
  let comment := comment.filter (Text.trim · ≠ "")
  if text = "" then throw (.invalidInput .emptyKey)
  match TextKind.ofText text with
  | .publicKey =>
    let (key, own) ← PublicKey.ofLine text
    let info ← key.info ((comment.or own).getD "")
    pure ⟨false, false, none, .none, info, none⟩
  | .privateKey =>
    let format := KeyFormat.ofText text
    let detection ← Detection.ofText format text
    let k ← PrivateKey.load text passphrase
    let info ← (k.withComment (comment.getD k.comment)).info
    pure ⟨true, detection.passphraseRequired, some format, detection.cipher, info, some text⟩

/-- What can be said of a key without its passphrase. -/
structure InspectReport where
  isPrivate : Bool
  format : Option KeyFormat
  cipher : CipherKind
  cipherName : Option String
  passphraseRequired : Bool
  kdf : Option String
  kdfRounds : Option UInt32
  info : Option PublicKeyInfo
  deriving DecidableEq

def inspect (text : String) : Except Failure InspectReport := do
  let text := Text.trim text
  if text = "" then throw (.invalidInput .emptyKey)
  match TextKind.ofText text with
  | .publicKey =>
    let (key, own) ← PublicKey.ofLine text
    let info ← key.info (own.getD "")
    pure ⟨false, none, .none, none, false, none, none, some info⟩
  | .privateKey =>
    let format := KeyFormat.ofText text
    let d ← Detection.ofText format text
    let report : InspectReport :=
      ⟨true, some format, d.cipher, d.declaredName, d.passphraseRequired, none, none, none⟩
    match format with
    | .openssh =>
      let h ← ContainerHeader.parse text
      let key ← h.publicKey
      let info ← key.info ""
      pure { report with
        kdf := some h.kdfName
        kdfRounds := h.kdf.map (·.rounds)
        info := some info }
    | .pem | .pkcs8 => pure report

/-! ## Buffers -/

/-- Puts a text and a zero byte at the start of a buffer and leaves the rest of it alone.  Gives
the length of the text. -/
def copyToBuffer (text : String) (buffer : Bytes) : Except Failure (Nat × Bytes) :=
  let b := Bytes.ofString text
  let needed := b.length + 1
  if buffer.length < needed then .error (.bufferTooSmall needed buffer.length)
  else .ok (b.length, b ++ 0 :: buffer.drop needed)

end SshKeys
