/-!
# Named choices

The formats of a private key, the ciphers of a container and the algorithms a
key can be generated for, each with the name it has in settings and on the
command line.
-/

namespace SshKeys

/-- The entry of a list a name stands for. -/
def byName? {α : Type} (name : α → String) (all : List α) (s : String) : Option α :=
  all.find? fun a => name a == s

/-- The same without regard to the case of ASCII letters. -/
def byNameAnyCase? {α : Type} (name : α → String) (all : List α) (s : String) : Option α :=
  all.find? fun a => (name a).toList.map Char.toLower == s.toList.map Char.toLower

/-- How a private key is written out. -/
inductive KeyFormat where
  | openssh
  | pem
  | pkcs8
  deriving DecidableEq, Repr

namespace KeyFormat

def all : List KeyFormat := [openssh, pem, pkcs8]

def name : KeyFormat → String
  | openssh => "openssh"
  | pem => "pem"
  | pkcs8 => "pkcs8"

end KeyFormat

/-- How the private section of a container is sealed. -/
inductive CipherKind where
  | none
  | aes256Ctr
  | chacha20Poly1305
  deriving DecidableEq, Repr

namespace CipherKind

def all : List CipherKind := [none, aes256Ctr, chacha20Poly1305]

/-- The ciphers that can be asked for. -/
def choices : List CipherKind := [aes256Ctr, chacha20Poly1305]

/-- The name in settings and on the command line. -/
def settingName : CipherKind → String
  | none => "none"
  | aes256Ctr => "aes256-ctr"
  | chacha20Poly1305 => "chacha20-poly1305"

/-- The cipher used when a passphrase is given. -/
def forEncryption : CipherKind → CipherKind
  | chacha20Poly1305 => chacha20Poly1305
  | none | aes256Ctr => aes256Ctr

end CipherKind

/-- What kind of key to generate. -/
inductive KeyAlgorithm where
  | rsa
  | ed25519
  | ecdsaP256
  | ecdsaP384
  | ecdsaP521
  deriving DecidableEq, Repr

namespace KeyAlgorithm

def all : List KeyAlgorithm := [rsa, ed25519, ecdsaP256, ecdsaP384, ecdsaP521]

def name : KeyAlgorithm → String
  | rsa => "rsa"
  | ed25519 => "ed25519"
  | ecdsaP256 => "ecdsa-p256"
  | ecdsaP384 => "ecdsa-p384"
  | ecdsaP521 => "ecdsa-p521"

end KeyAlgorithm

end SshKeys
