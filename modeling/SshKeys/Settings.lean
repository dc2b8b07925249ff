import SshKeys.Choice
import SshKeys.Failure
import SshKeys.Json.Printer
import SshKeys.Json.Reader

/-!
# Settings

Defaults for what the command line leaves open, kept as a JSON object.  Reading
takes the fields that are there and the defaults for the rest; the object may
hold other fields, and an array of values in the order of the fields will do.
-/

namespace SshKeys

structure Settings where
  algorithm : KeyAlgorithm := .ed25519
  rsaBits : Nat := 3072
  format : KeyFormat := .openssh
  cipher : CipherKind := .aes256Ctr
  comment : String := ""
  deriving DecidableEq, Repr

namespace Settings

/-- The comment to use: the one given, else the one in the settings unless it is empty. -/
def commentOr (s : Settings) (comment : Option String) : Option String :=
  comment.or (if s.comment.isEmpty then none else some s.comment)

/-! ## Writing -/

def toJson (s : Settings) : JsonValue :=
  .record
    [("default_algorithm", .text s.algorithm.name), ("rsa_bits", .nat s.rsaBits),
      ("default_format", .text s.format.name), ("default_cipher", .text s.cipher.settingName),
      ("default_comment", .text s.comment)]

/-- The text of a settings file. -/
def toText (s : Settings) : String :=
  s.toJson.print ++ "\n"

/-! ## Reading -/

/-- A name: a string, or an object whose one member has that key and no value. -/
def nameOf? : JsonValue → Option String
  | .string s => s
  | .object [(k, .null)] => k
  | _ => none

def choice? {α : Type} (name : α → String) (all : List α) (v : JsonValue) : Option α := do
  byName? name all (← nameOf? v)

/-- The names of the fields, in order. -/
def fieldNames : List String :=
  ["default_algorithm", "rsa_bits", "default_format", "default_cipher", "default_comment"]

/-- Sets the field of a name; other names have no effect. -/
def setField? (s : Settings) (name : String) (v : JsonValue) : Option Settings :=
  match name with
  | "default_algorithm" => do
    pure { s with algorithm := ← choice? KeyAlgorithm.name KeyAlgorithm.all v }
  | "rsa_bits" => do pure { s with rsaBits := ← v.nat64? }
  | "default_format" => do pure { s with format := ← choice? KeyFormat.name KeyFormat.all v }
  | "default_cipher" => do
    pure { s with cipher := ← choice? CipherKind.settingName CipherKind.all v }
  | "default_comment" => do pure { s with comment := ← v.text? }
  | _ => some s

/-- Sets the fields of an object in turn; `seen` holds the names that may not come again. -/
def setMembers? (s : Settings) (seen : List String) :
    List (Option String × JsonValue) → Option Settings
  | [] => some s
  | (name, v) :: rest => do
    let name ← name
    guard (!seen.contains name)
    let s ← s.setField? name v
    setMembers? s (if fieldNames.contains name then name :: seen else seen) rest

/-- Sets the first fields from the values of an array. -/
def setElements? (s : Settings) : List String → List JsonValue → Option Settings
  | _, [] => some s
  | [], _ :: _ => none
  | name :: names, v :: rest => do
    let s ← s.setField? name v
    setElements? s names rest

def ofJson? : JsonValue → Option Settings
  | .object members => setMembers? { } [] members
  | .array elements => setElements? { } fieldNames elements
  | _ => none

/-- The settings of the text of a file. -/
def ofText (s : String) : Except Failure Settings :=
  match JsonValue.parse? s >>= ofJson? with
  | some settings => .ok settings
  | none => .error (.json "not the settings of this program")

end Settings

end SshKeys
