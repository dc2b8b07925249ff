import SshKeys.Command.Run

/-!
# The program

The console of the machine it runs on.
-/

namespace SshKeys

/-- A command that runs on the machine. -/
abbrev MachineM (α : Type) := ExceptT Failure IO α

namespace Machine

def faultOf (e : IO.Error) : IoFault :=
  match e with
  | .noFileOrDirectory .. => .notFound
  | .inappropriateType _ 21 _ => .isFolder
  | .inappropriateType .. => .notFolder
  | .alreadyExists _ 17 _ => .fileExists
  | .invalidArgument _ 36 _ => .nameTooLong
  | e => .other (toString e)

/-- Runs an action; what goes wrong with it becomes a failure. -/
def act {α : Type} (a : IO α) : MachineM α := do
  match ← (a.toBaseIO : BaseIO (Except IO.Error α)) with
  | .ok x => pure x
  | .error e => throw (.io (faultOf e))

def pathExists (path : String) : IO Bool := do
  try
    let _ ← IO.FS.Handle.mk path .read
    pure true
  catch _ => pure false

def readAll (h : IO.FS.Handle) : IO Bytes := do
  pure (← h.readBinToEnd).toList

def writeFile (access : Access) (path : String) (content : Bytes) : IO Unit := do
  let h ← IO.FS.Handle.mk path .write
  if access = .ownerOnly then
    IO.setAccessRights path { user := { read := true, write := true } }
  h.write ⟨content.toArray⟩
  h.flush

/-- The folder named by the environment, if it is an absolute path, or the usual one. -/
def settingsFolder : IO (Option String) := do
  match (← IO.getEnv "XDG_CONFIG_HOME").filter Path.isAbsolute with
  | some folder => pure (some folder)
  | none =>
    let home := (← IO.getEnv "HOME").filter (· ≠ "")
    pure (home.map fun home => Path.join home ".config")

def print (text : String) : IO Unit := do
  let out ← IO.getStdout
  out.putStr text
  out.flush

def confirm (q : Question) : IO Bool := do
  print q.prompt
  try
    pure (isYes (Bytes.ofString (← (← IO.getStdin).getLine)))
  catch _ => pure false

partial def readRest (s : IO.FS.Stream) (before : Bytes) : IO Bytes := do
  let b ← s.read 65536
  if b.isEmpty then pure before else readRest s (before ++ b.toList)

/-- Asks at the terminal, whatever the input is connected to. -/
def askPassphrase (p : Passphrase) : MachineM String := do
  let terminal ← match ← (IO.FS.Handle.mk "/dev/tty" .readWrite).toBaseIO with
    | .ok h => pure h
    | .error _ => throw (.io .noTerminal)
  let line ← act do
    terminal.putStr p.prompt
    terminal.flush
    terminal.getLine
  match line.toList.reverse with
  | '\n' :: rest => pure (typedText (String.ofList rest.reverse))
  | _ => throw (.io .inputEnded)

/-- Draws from bytes that are many more than an operation ever needs. -/
def draw {α : Type} (r : Random α) : MachineM α := do
  let b ← act (IO.getRandomBytes 262144)
  match r.run b.toList with
  | .ok (a, _) => pure a
  | .error f => throw f

instance : Console MachineM where
  pathExists path := act (pathExists path)
  readFile path := act do readAll (← IO.FS.Handle.mk path .read)
  writeFile access path content := act (writeFile access path content)
  createFolders path := act (IO.FS.createDirAll path)
  settingsFolder := act settingsFolder
  print text := act (print text)
  confirm q := act (confirm q)
  readInput := act do readRest (← IO.getStdin) []
  askPassphrase
  promptBound := pure (1 <<< 62)
  draw

end Machine

end SshKeys

def main (arguments : List String) : IO UInt32 := do
  let ending ← match ← (SshKeys.runArguments arguments : SshKeys.MachineM SshKeys.Ending).run with
    | .ok ending => pure ending
    | .error f => pure (.failed f)
  if let some complaint := ending.complaint? then IO.eprintln complaint
  pure (UInt32.ofNat ending.exitCode)
