import SshKeys.Command.Arguments
import SshKeys.Command.Passphrase
import SshKeys.Command.Report
import SshKeys.Command.Session
import SshKeys.Command.SettingsFile

/-!
# Commands

What each request does on a console.
-/

namespace SshKeys

variable {m : Type → Type} [Monad m] [MonadExceptOf Failure m] [Console m]

/-- The text of the key in a file, or of the input for a dash. -/
def readKeyText (path : String) : m String := do
  let b ← if path = "-" then Console.readInput else Console.readFile path
  MonadExcept.ofExcept (textOf b)

/-- Whether a file may be written: it does not exist, or the user lets it be replaced. -/
def mayWrite (path : String) : m Bool := do
  if ← Console.pathExists path then Console.confirm (.replaceFile path) else pure true

/-- The same for output that may have no file. -/
def mayOutput : Option String → m Bool
  | none => pure true
  | some path => mayWrite path

def printCancelled : m Unit :=
  printLine "Отменено."

def printDone : m Unit :=
  printLine "готово"

def GenerateRequest.run (r : GenerateRequest) (s : Settings) : m Unit := do
  let algorithm := r.algorithm.getD s.algorithm
  let format := r.format.getD s.format
  if ← mayOutput r.output then
    let passphrase ←
      if r.inTheClear ∨ format ≠ .openssh then pure none
      else do
        let passphrase ← newPassphrase
        printLine ""
        pure passphrase
    Console.print s!"Генерация ключа {algorithm.name}... "
    let key ← Console.draw (SshKeys.generate algorithm (r.bits.getD s.rsaBits)
      { format, passphrase, cipher := r.cipher.getD s.cipher, comment := s.commentOr r.comment })
    printDone
    match r.output with
    | some path =>
      Console.print "Сохранение ключей... "
      Console.writeFile .ownerOnly path (Bytes.ofString key.text)
      Console.writeFile .everyone (Path.publicKey path) (Bytes.ofString (key.info.line ++ "\n"))
      printDone
      printLines ["", s!"Закрытый ключ: {path}", s!"Публичный ключ: {Path.publicKey path}"]
    | none =>
      printLine ""
      Console.print key.text
    printLines ("" :: key.lines)
  else printCancelled

def ConvertRequest.run (r : ConvertRequest) (s : Settings) : m Unit := do
  let text ← readKeyText r.source
  if ← mayOutput r.output then
    let (_, current) ← unlock (PrivateKey.load text)
    let passphrase ←
      if r.inTheClear ∨ r.format ≠ .openssh then pure none
      else do
        printLine ""
        newPassphrase
    Console.print "Преобразование ключа... "
    let key ← Console.draw (SshKeys.convert text current
      { format := r.format, passphrase, cipher := r.cipher.getD s.cipher, comment := r.comment })
    printDone
    match r.output with
    | some path =>
      Console.writeFile .ownerOnly path (Bytes.ofString key.text)
      printLine s!"Закрытый ключ: {path}"
    | none =>
      printLine ""
      Console.print key.text
    printLines ("" :: key.lines)
  else printCancelled

def runImport (source : String) (comment : Option String) (asJson : Bool) : m Unit := do
  let text ← readKeyText source
  let (report, _) ← unlock fun passphrase => importKey text passphrase comment
  if asJson then printLine report.toJson.print
  else printLines ("" :: report.lines)

def runInspect (source : String) (asJson : Bool) : m Unit := do
  let text ← readKeyText source
  let report ← MonadExcept.ofExcept (SshKeys.inspect text)
  if asJson then printLine report.toJson.print
  else printLines ("" :: report.lines)

def showSettings (path : String) (s : Settings) : m Unit := do
  let remark :=
    if ← Console.pathExists path then "" else " (файл отсутствует, значения по умолчанию)"
  printLines [s!"Файл настроек: {path}{remark}", "", s.toJson.print]

def initSettings (path : String) : m Unit := do
  let go ← if ← Console.pathExists path then Console.confirm .replaceSettings else pure true
  if go then
    Settings.save { } path
    printLine s!"Настройки сохранены: {path}"
  else printCancelled

/-- The settings are read before anything is done, unless they are to be written. -/
def Request.run (r : Request) : m Unit := do
  let path ← match r.settings with
    | some path => pure path
    | none => Settings.usualPath
  match r.task with
  | .initSettings => initSettings path
  | .generate g => do g.run (← Settings.load path)
  | .convert c => do c.run (← Settings.load path)
  | .importKey source comment asJson => do
    let _ ← Settings.load path
    runImport source comment asJson
  | .inspect source asJson => do
    let _ ← Settings.load path
    runInspect source asJson
  | .showSettings => do showSettings path (← Settings.load path)

/-! ## The program -/

def versionText : String := "sshkey-codec 0.1.0"

def usage : List String :=
  ["Использование: sshkey-codec [--config PATH] [--verbose] КОМАНДА",
    "",
    "Команды:",
    "  generate     Сгенерировать новую пару ключей",
    "  import       Импортировать ключ и показать сведения о нём",
    "  convert      Преобразовать ключ в другой формат",
    "  inspect      Показать формат и шифр ключа без расшифровки",
    "  config show  Показать текущие настройки",
    "  config init  Создать файл настроек со значениями по умолчанию"]

/-- How a run ends. -/
inductive Ending where
  | done
  | failed (f : Failure)
  | misused
  deriving DecidableEq

def Ending.exitCode : Ending → Nat
  | done => 0
  | failed _ => 1
  | misused => 2

/-- What is said of a failure. -/
def Ending.complaint? : Ending → Option String
  | failed f => some s!"Ошибка: {f.message}"
  | done | misused => none

/-- Does what the arguments ask for. -/
def runArguments (arguments : List String) : m Ending := do
  match Request.ofArguments arguments with
  | .ok r =>
    try
      r.run
      pure .done
    catch f => pure (.failed f)
  | .error .help =>
    printLines usage
    pure .done
  | .error .version =>
    printLine versionText
    pure .done
  | .error .misuse => pure .misused

/-- Runs the program in a session. -/
def Session.run (s : Session) (arguments : List String) : Ending × Session :=
  match StateT.run (ExceptT.run (runArguments arguments : SessionM Ending)) s with
  | (.ok ending, s) => (ending, s)
  | (.error f, s) => (.failed f, s)

end SshKeys
