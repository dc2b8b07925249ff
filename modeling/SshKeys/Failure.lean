import SshKeys.Kdf.Bcrypt
import SshKeys.Key.Reader
import SshKeys.Rsa
import SshKeys.Text.Base64
import SshKeys.Wire.Field

/-!
# What can go wrong

Every operation on keys fails with a `Failure`: its kind, and a cause.  The
wording shown to the user is in this file and nowhere else.
-/

namespace SshKeys

/-- The steps in which a document is read out of a PEM file. -/
inductive DocumentStep where
  | armor
  | label
  | content
  deriving DecidableEq, Repr

/-- Why there is no document in a file: the step that fails, and what it was given. -/
structure DocumentFault where
  step : DocumentStep
  given : Bytes
  deriving DecidableEq, Repr

/-- The parsers of documents have a wording of their own, which may come from all they were given.
This one only tells their steps apart. -/
def DocumentFault.message (f : DocumentFault) : String :=
  match f.step with
  | .armor => "malformed PEM"
  | .label => "unexpected PEM type label"
  | .content => "malformed document"

/-- What is wrong with a text given as a key. -/
inductive InputFault where
  | emptyKey
  | lineShape
  | base64 (fault : Base64.Fault)
  | publicKey (fault : KeyFault)
  | typeMismatch (token algorithm : String)
  | rsaSize (least most : Nat)
  | notPem
  | unrecognized
  | pkcs8 (fault : DocumentFault)
  | pkcs1 (fault : DocumentFault)
  | rsa (fault : KeyFault)
  | noSettingsFolder
  | other (text : String)
  deriving DecidableEq, Repr

/-- The message, in which faults of documents are worded as `wording` has it. -/
def InputFault.messageWith (wording : DocumentFault → String) : InputFault → String
  | .emptyKey => "пустой ключ"
  | .lineShape => "ожидается строка вида «тип base64 [комментарий]»"
  | .base64 f => s!"base64: {f.message}"
  | .publicKey f => s!"публичный ключ: {f.message}"
  | .typeMismatch token algorithm => s!"тип {token} не совпадает с ключом {algorithm}"
  | .rsaSize least most => s!"размер ключа RSA должен быть от {least} до {most} бит"
  | .notPem => "ключ OpenSSH не является PEM"
  | .unrecognized => "не удалось распознать формат ключа"
  | .pkcs8 f => s!"PKCS#8: {wording f}"
  | .pkcs1 f => s!"PKCS#1: {wording f}"
  | .rsa f => s!"RSA: {f.message}"
  | .noSettingsFolder => "не удалось определить каталог конфигурации"
  | .other text => text

def InputFault.message : InputFault → String :=
  messageWith DocumentFault.message

/-- What is wrong with a container. -/
inductive ContainerFault where
  | field (fault : Field.Fault)
  | noBegin
  | noEnd
  | emptyPayload
  | base64 (fault : Base64.Fault)
  | cutBeforeMagic
  | noMagic
  | emptyCipherName
  | kdfNoneOptions
  | kdfOptionsTrailing
  | kdfRounds (rounds least most : Nat)
  | kdfSaltLength (length : Nat)
  | keyCount (found : Nat)
  | publicKey (fault : KeyFault)
  | sectionLength (length block : Nat)
  | tagLength (expected found : Nat)
  | noKdf
  | checkNumbers
  | keyPair (fault : KeyFault)
  | keyMismatch
  | padding
  | shortSeal
  | key (fault : KeyFault)
  | other (text : String)
  deriving DecidableEq, Repr

def ContainerFault.message : ContainerFault → String
  | .field f => f.message
  | .noBegin => "BEGIN marker not found"
  | .noEnd => "END marker not found"
  | .emptyPayload => "empty base64 payload"
  | .base64 f => s!"invalid base64: {f.message}"
  | .cutBeforeMagic => "truncated before magic"
  | .noMagic => "missing openssh-key-v1 magic"
  | .emptyCipherName => "empty cipher name"
  | .kdfNoneOptions => "kdf none with non-empty options"
  | .kdfOptionsTrailing => "trailing bytes in kdf options"
  | .kdfRounds rounds least most => s!"bcrypt rounds {rounds} outside {least}..={most}"
  | .kdfSaltLength length => s!"bcrypt salt length {length}"
  | .keyCount found => s!"expected exactly one key, found {found}"
  | .publicKey f => s!"invalid public key blob: {f.message}"
  | .sectionLength length block =>
    s!"private section of {length} bytes is not aligned to {block}-byte blocks"
  | .tagLength expected found =>
    s!"expected a {expected}-byte tag, found {found} trailing bytes"
  | .noKdf => "encrypted container without bcrypt options"
  | .checkNumbers => "checkint mismatch"
  | .keyPair f => s!"invalid keypair blob: {f.message}"
  | .keyMismatch => "private key does not match the public key blob"
  | .padding => "invalid padding"
  | .shortSeal => "ciphertext shorter than the authentication tag"
  | .key f => f.message
  | .other text => text

/-- Why no key can be derived from a passphrase. -/
inductive KdfFault where
  | emptyPassphrase
  | zeroRounds
  | bcrypt (fault : Bcrypt.Fault)
  | other (text : String)
  deriving DecidableEq

def KdfFault.message : KdfFault → String
  | .emptyPassphrase => "empty passphrase"
  | .zeroRounds => "zero rounds"
  | .bcrypt f => f.message
  | .other text => text

/-- Why a cipher cannot be applied. -/
inductive CipherFault where
  | keyMaterial (cipher : String) (expected found : Nat)
  | aesSizes (key iv expectedKey expectedIv : Nat)
  | keystream
  | other (text : String)
  deriving DecidableEq

def CipherFault.message : CipherFault → String
  | .keyMaterial cipher expected found =>
    s!"{cipher} expects {expected} bytes of key material, got {found}"
  | .aesSizes key iv expectedKey expectedIv =>
    s!"aes256-ctr expects a {expectedKey}-byte key and {expectedIv}-byte IV, got {key} and {iv}"
  | .keystream => "chacha20 keystream exhausted"
  | .other text => text

/-- Why a key pair cannot be written out. -/
inductive ExportFault where
  | key (fault : KeyFault)
  | rsa (fault : Rsa.Fault)
  | scalar
  | noInverse
  | fieldLength (length : Nat)
  | sectionLength
  | other (text : String)
  deriving DecidableEq

def ExportFault.message : ExportFault → String
  | .key f => f.message
  | .rsa f => f.message
  | .scalar => "crypto error"
  | .noInverse => "PKCS#8 cryptographic key data malformed"
  | .fieldLength length => s!"field of {length} bytes exceeds u32"
  | .sectionLength => "private section exceeds u32"
  | .other text => text

/-- Why a file or the terminal cannot be used. -/
inductive IoFault where
  | notFound
  | notFolder
  | isFolder
  | fileExists
  | nameTooLong
  | notText
  | noTerminal
  | inputEnded
  | other (text : String)
  deriving DecidableEq, Repr

def IoFault.message : IoFault → String
  | .notFound => "No such file or directory (os error 2)"
  | .notFolder => "Not a directory (os error 20)"
  | .isFolder => "Is a directory (os error 21)"
  | .fileExists => "File exists (os error 17)"
  | .nameTooLong => "File name too long (os error 36)"
  | .notText => "stream did not contain valid UTF-8"
  | .noTerminal => "No such device or address (os error 6)"
  | .inputEnded => "unexpected end of file"
  | .other text => text

inductive Failure where
  | invalidInput (fault : InputFault)
  | unsupportedAlgorithm (what : String)
  | unsupportedCombination (what : String)
  | malformedContainer (fault : ContainerFault)
  | passphraseRequired
  | decryptionFailed
  | kdfFailure (fault : KdfFault)
  | cipherFailure (fault : CipherFault)
  | randomSourceFailure (what : String)
  | encodingFailure (fault : ExportFault)
  | allocationFailure (what : String)
  | bufferTooSmall (needed available : Nat)
  | io (fault : IoFault)
  | json (what : String)
  deriving DecidableEq

/-- A failure without its cause. -/
inductive FailureKind where
  | invalidInput
  | unsupportedAlgorithm
  | unsupportedCombination
  | malformedContainer
  | passphraseRequired
  | decryptionFailed
  | kdfFailure
  | cipherFailure
  | randomSourceFailure
  | encodingFailure
  | allocationFailure
  | bufferTooSmall
  | io
  | json
  deriving DecidableEq, Repr

namespace Failure

def kind : Failure → FailureKind
  | invalidInput _ => .invalidInput
  | unsupportedAlgorithm _ => .unsupportedAlgorithm
  | unsupportedCombination _ => .unsupportedCombination
  | malformedContainer _ => .malformedContainer
  | passphraseRequired => .passphraseRequired
  | decryptionFailed => .decryptionFailed
  | kdfFailure _ => .kdfFailure
  | cipherFailure _ => .cipherFailure
  | randomSourceFailure _ => .randomSourceFailure
  | encodingFailure _ => .encodingFailure
  | allocationFailure _ => .allocationFailure
  | bufferTooSmall .. => .bufferTooSmall
  | io _ => .io
  | json _ => .json

def message : Failure → String
  | invalidInput f => s!"Неверные входные данные: {f.message}"
  | unsupportedAlgorithm what => s!"Неподдерживаемый алгоритм: {what}"
  | unsupportedCombination what => s!"Неподдерживаемая комбинация параметров: {what}"
  | malformedContainer f => s!"Повреждённый контейнер OpenSSH: {f.message}"
  | passphraseRequired => "Ключ зашифрован. Укажите парольную фразу."
  | decryptionFailed => "Ошибка расшифровки: неверная парольная фраза или повреждённые данные"
  | kdfFailure f => s!"Ошибка вычисления ключа (KDF): {f.message}"
  | cipherFailure f => s!"Ошибка шифрования: {f.message}"
  | randomSourceFailure what => s!"Ошибка источника случайных чисел: {what}"
  | encodingFailure f => s!"Ошибка кодирования: {f.message}"
  | allocationFailure what => s!"Не удалось выделить память: {what}"
  | bufferTooSmall needed available =>
    s!"Недостаточный размер буфера: требуется {needed} байт, доступно {available}"
  | io f => s!"Ошибка ввода-вывода: {f.message}"
  | json what => s!"Ошибка JSON: {what}"

/-- Whether another passphrase may help. -/
def isPassphraseProblem : Failure → Bool
  | passphraseRequired | decryptionFailed => true
  | _ => false

end Failure

end SshKeys
