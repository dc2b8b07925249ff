import SshKeys.Command.Console
import SshKeys.Settings

/-!
# The settings file

Where it is, and how it is read and written.  A missing file holds the defaults.
-/

namespace SshKeys

variable {m : Type → Type} [Monad m] [MonadExceptOf Failure m] [Console m]

/-- The text of a byte string. -/
def textOf (b : Bytes) : Except Failure String :=
  match b.toString? with
  | some s => .ok s
  | none => .error (.io .notText)

namespace Settings

/-- The file of settings if no other was asked for. -/
def usualPath : m String := do
  match ← Console.settingsFolder with
  | some folder => pure (Path.join (Path.join folder "sshkey-codec") "config.json")
  | none => throw (.invalidInput .noSettingsFolder)

def load (path : String) : m Settings := do
  if ← Console.pathExists path then
    MonadExcept.ofExcept (textOf (← Console.readFile path) >>= ofText)
  else pure { }

/-- Writes the settings to a file, for which folders are made. -/
def save (s : Settings) (path : String) : m Unit := do
  let folder := Path.parent path
  if folder ≠ "" ∧ !(← Console.pathExists folder) then Console.createFolders folder
  Console.writeFile .ownerOnly path (Bytes.ofString s.toText)

end Settings

end SshKeys
