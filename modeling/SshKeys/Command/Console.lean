import SshKeys.Entropy
import SshKeys.FileSystem
import SshKeys.Text.Blank
import SshKeys.Text.Case

/-!
# What commands need of the world around them

`Console` lists it: files, the user at the terminal, and random bytes.  Commands
are written against it, so that the same command runs on real files, and on a
`Session`, where everything it did can be looked at.
-/

namespace SshKeys

/-- A question to be answered with yes or no. -/
inductive Question where
  | replaceFile (path : String)
  | replaceSettings
  | saveInTheClear
  deriving DecidableEq, Repr

def Question.text : Question → String
  | replaceFile path => s!"Файл {path} существует. Перезаписать?"
  | replaceSettings => "Файл настроек существует. Перезаписать значениями по умолчанию?"
  | saveInTheClear => "Сохранить закрытый ключ без шифрования?"

/-- How a question is shown.  The answer is expected on the same line. -/
def Question.prompt (q : Question) : String :=
  s!"{q.text} [y/N] "

/-- Whether a line is a yes, in English or in Russian; bytes that are no text are a no. -/
def isYes (line : Bytes) : Bool :=
  match line.toString? with
  | none => false
  | some s => ["y", "yes", "д", "да"].contains (Text.lower (Text.trim s))

/-- A passphrase the user is asked for. -/
inductive Passphrase where
  | current
  | new
  | newAgain
  deriving DecidableEq, Repr

def Passphrase.prompt : Passphrase → String
  | current => "Введите парольную фразу ключа: "
  | new => "Введите парольную фразу: "
  | newAgain => "Подтвердите парольную фразу: "

/-- What a line typed at the terminal stands for.  A carriage return at its end belongs to the
line end, and the character that kills a line takes back all that was typed before it. -/
def typedText (line : String) : String :=
  let cs := line.toList
  let cs := if cs.getLast? = some '\r' then cs.dropLast else cs
  String.ofList (cs.reverse.takeWhile (· ≠ '\x15')).reverse

class Console (m : Type → Type) where
  pathExists (path : String) : m Bool
  readFile (path : String) : m Bytes
  writeFile (access : Access) (path : String) (content : Bytes) : m Unit
  createFolders (path : String) : m Unit
  /-- The folder that holds the settings of all programs, if there is one. -/
  settingsFolder : m (Option String)
  print (text : String) : m Unit
  /-- Asks a question and takes the next line of the input as the answer. -/
  confirm (q : Question) : m Bool
  /-- What is left of the input. -/
  readInput : m Bytes
  /-- Asks for a passphrase at the terminal.  Nothing of this is part of what is printed. -/
  askPassphrase (p : Passphrase) : m String
  /-- More passphrases than this cannot be asked for. -/
  promptBound : m Nat
  draw {α : Type} (r : Random α) : m α

end SshKeys
