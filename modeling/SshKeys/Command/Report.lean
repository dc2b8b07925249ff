import SshKeys.Json.Printer
import SshKeys.Operation

/-!
# Reports

What is said about a key: as lines for the user, or as JSON.
-/

namespace SshKeys

/-- A line that sets the public key apart. -/
def rule : String :=
  String.ofList (List.replicate 60 '─')

namespace PublicKeyInfo

def lines (i : PublicKeyInfo) : List String :=
  [s!"Тип ключа: {i.keyType.name} ({i.bitLength} бит)", s!"Отпечаток: {i.fingerprints.sha256}",
    s!"Отпечаток: {i.fingerprints.md5}", "", rule, i.line, rule]

def fields (i : PublicKeyInfo) : List (String × JsonValue) :=
  [("key_type", .text i.keyType.name), ("bit_length", .nat i.bitLength),
    ("public_key", .text i.line),
    ("fingerprints",
      .record [("sha256", .text i.fingerprints.sha256), ("md5", .text i.fingerprints.md5)])]

end PublicKeyInfo

def formatJson (f : Option KeyFormat) : JsonValue :=
  .optional (fun f => .text f.name) f

namespace ExportedKey

def lines (k : ExportedKey) : List String :=
  s!"Формат: {k.format.name}, шифр {k.cipher.name}" :: k.info.lines

end ExportedKey

namespace ImportReport

def lines (r : ImportReport) : List String :=
  (if r.isPrivate then
    ["Ключ: закрытый, формат " ++ (r.format.map KeyFormat.name).getD "",
      "Шифр: " ++ if r.passphraseProtected then r.cipher.name else "нет"]
  else ["Ключ: публичный"]) ++ r.info.lines

def toJson (r : ImportReport) : JsonValue :=
  .record
    ([("is_private_key", .bool r.isPrivate), ("passphrase_protected", .bool r.passphraseProtected),
      ("detected_format", formatJson r.format), ("detected_cipher", .text r.cipher.settingName)]
      ++ r.info.fields)

end ImportReport

namespace InspectReport

/-- How the key of a passphrase is derived. -/
def kdfText (r : InspectReport) : Option String :=
  r.kdf.map fun kdf =>
    match r.kdfRounds with
    | some rounds => s!"KDF: {kdf} ({rounds.toNat} раундов)"
    | none => s!"KDF: {kdf}"

def lines (r : InspectReport) : List String :=
  (if r.isPrivate then
    (r.format.map fun f => "Формат: " ++ f.name).toList
      ++ ["Шифр: " ++ r.cipherName.getD r.cipher.name]
      ++ r.kdfText.toList
      ++ if r.passphraseRequired then ["Для расшифровки нужна парольная фраза."] else []
  else ["Ключ: публичный"])
    ++ match r.info with
      | some i => "" :: i.lines
      | none => []

def toJson (r : InspectReport) : JsonValue :=
  .record
    [("is_private_key", .bool r.isPrivate), ("format", formatJson r.format),
      ("cipher", .text r.cipher.settingName), ("cipher_name", .optional .text r.cipherName),
      ("passphrase_required", .bool r.passphraseRequired), ("kdf", .optional .text r.kdf),
      ("kdf_rounds", .optional (fun n => .nat n.toNat) r.kdfRounds),
      ("public", .optional (fun i => .record i.fields) r.info)]

end InspectReport

end SshKeys
