import SshKeys.Container.Header
import SshKeys.Text.Blank

/-!
# What kind of key a text holds

Told from markers in the text and, for containers, from the name of the cipher in
the clear part; no passphrase is involved.
-/

namespace SshKeys

/-! ## Markers -/

def containerMarker : String := "BEGIN OPENSSH PRIVATE KEY"

def pkcs8Marker : String := "BEGIN PRIVATE KEY"

def encryptedPkcs8Marker : String := "BEGIN ENCRYPTED PRIVATE KEY"

/-- The header line of an encrypted key in the format of before PKCS#8. -/
def legacyEncryptedMarker : String := "Proc-Type: 4,ENCRYPTED"

def legacyCipherMarker : String := "DEK-Info:"

/-- The format of a private key by its markers; without any it is taken for PEM. -/
def KeyFormat.ofText (text : String) : KeyFormat :=
  let text := Text.trim text
  if Text.contains text containerMarker then .openssh
  else if Text.contains text pkcs8Marker || Text.contains text encryptedPkcs8Marker then .pkcs8
  else .pem

/-- Whether a text is taken for a private key or for a public key line. -/
inductive TextKind where
  | privateKey
  | publicKey
  deriving DecidableEq, Repr

/-- A text is public only if it begins like a line and holds no private key marker. -/
def TextKind.ofText (text : String) : TextKind :=
  let text := Text.trim text
  let looksPrivate := Text.contains text "PRIVATE KEY-----" || Text.contains text containerMarker
  let looksPublic := ["ssh-", "ecdsa-", "sk-"].any (Text.startsWith text)
  if looksPrivate || !looksPublic then .privateKey else .publicKey

/-! ## Ciphers -/

/-- What protects a private key, as far as it shows. -/
structure Detection where
  cipher : CipherKind
  passphraseRequired : Bool
  /-- The name of the cipher a container declares. -/
  declaredName : Option String
  deriving DecidableEq, Repr

namespace Detection

def unencrypted : Detection := ⟨.none, false, none⟩

/-- The name of the cipher of a payload, read without looking at what follows it. -/
def declaredNameOf (payload : Bytes) : Except Failure String :=
  if payload.length < ContainerHeader.magic.length then
    .error (.malformedContainer .cutBeforeMagic)
  else if payload.take ContainerHeader.magic.length ≠ ContainerHeader.magic then
    .error (.malformedContainer .noMagic)
  else
    match Field.text (payload.drop ContainerHeader.magic.length) with
    | (.error f, _) => .error (.malformedContainer (.field f))
    | (.ok name, _) =>
      if name.isEmpty then .error (.malformedContainer .emptyCipherName) else .ok name

/-- A container under an unknown cipher still counts as encrypted. -/
def ofDeclaredName (name : String) : Detection :=
  if name = CipherKind.none.name then { unencrypted with declaredName := some name }
  else ⟨((CipherProfile.byName? name).map (·.kind)).getD .none, true, some name⟩

def ofContainer (text : String) : Except Failure Detection := do
  let payload ← Armor.unwrap text
  pure (ofDeclaredName (← declaredNameOf payload))

/-- What the header lines of a PEM file suggest. -/
def ofPem (text : String) : Detection :=
  if [encryptedPkcs8Marker, legacyEncryptedMarker, legacyCipherMarker].any (Text.contains text) then
    let cipher : CipherKind :=
      if Text.contains text "AES-256-CTR" then .aes256Ctr
      else if Text.contains text "ChaCha20" then .chacha20Poly1305
      else .none
    ⟨cipher, true, none⟩
  else unencrypted

/-- What protects a private key in the given format. -/
def ofText (format : KeyFormat) (text : String) : Except Failure Detection :=
  let text := Text.trim text
  match format with
  | .openssh => ofContainer text
  | .pem | .pkcs8 => .ok (ofPem text)

end Detection

end SshKeys
