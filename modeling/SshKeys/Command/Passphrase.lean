import SshKeys.Command.Console

/-!
# Asking for passphrases

`unlock` asks only for the passphrase of a key that turns out to be encrypted, and
lets the user try `maxAttempts` times.  `newPassphrase` asks twice for the
passphrase of a new key.
-/

namespace SshKeys

variable {m : Type → Type} [Monad m] [MonadExceptOf Failure m] [Console m]

def printLine (s : String) : m Unit :=
  Console.print (s ++ "\n")

def printLines (l : List String) : m Unit :=
  l.forM printLine

/-- How often a passphrase can be entered. -/
def maxAttempts : Nat := 3

/-- Asks for the passphrase until one opens the key; `left` is how often that can be done. -/
def askUntilOpen {α : Type} (attempt : Option String → Except Failure α) :
    (left : Nat) → m (α × String)
  | 0 => throw .decryptionFailed
  | left + 1 => do
    let passphrase ← Console.askPassphrase .current
    match attempt (some passphrase) with
    | .ok a => pure (a, passphrase)
    | .error f =>
      if f = .decryptionFailed ∧ left ≠ 0 then
        printLine "Ошибка: Неверная парольная фраза"
        askUntilOpen attempt left
      else throw f

/-- Opens a key, at first without a passphrase.  Gives the passphrase that was needed as well. -/
def unlock {α : Type} (attempt : Option String → Except Failure α) : m (α × Option String) := do
  match attempt none with
  | .ok a => pure (a, none)
  | .error .passphraseRequired =>
    let (a, passphrase) ← askUntilOpen attempt maxAttempts
    pure (a, some passphrase)
  | .error f => throw f

/-- Asks for a passphrase until one was entered twice, or an empty one was meant; `left` bounds
how often that is. -/
def newPassphraseWithin : (left : Nat) → m (Option String)
  | 0 => throw (.io .inputEnded)
  | left + 1 => do
    let passphrase ← Console.askPassphrase .new
    if passphrase = "" then
      if ← Console.confirm .saveInTheClear then pure none else newPassphraseWithin left
    else
      let again ← Console.askPassphrase .newAgain
      if passphrase = again then pure (some passphrase)
      else
        printLine "Ошибка: Парольные фразы не совпадают"
        newPassphraseWithin left

/-- The passphrase of a new key; none leaves the key in the clear. -/
def newPassphrase : m (Option String) := do
  printLines
    ["Парольная фраза для нового ключа",
      "Оставьте пустой, чтобы сохранить ключ без шифрования.", ""]
  newPassphraseWithin (← Console.promptBound)

end SshKeys
