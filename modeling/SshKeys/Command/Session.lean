import SshKeys.Command.Console

/-!
# Sessions

A console in memory.  The files, the input, the lines to be typed and the random
bytes are given beforehand; what was printed and asked is kept in order.  A
failure leaves everything done before it in place.
-/

namespace SshKeys

/-- Something the user saw. -/
inductive Event where
  | printed (text : String)
  | asked (q : Question) (yes : Bool)
  deriving DecidableEq, Repr

def Event.text : Event → String
  | printed text => text
  | asked q _ => q.prompt

structure Session where
  files : FileSystem := {}
  settingsFolder : Option String := none
  /-- What is left of the standard input. -/
  input : Bytes := []
  /-- The lines still to be typed at the terminal, if there is one. -/
  typed : Option (List String) := none
  /-- The random bytes still to come. -/
  random : Bytes := []
  events : List Event := []
  deriving DecidableEq, Repr

/-- A command that runs in a session. -/
abbrev SessionM (α : Type) := ExceptT Failure (StateM Session) α

namespace Session

/-- All that was printed. -/
def output (s : Session) : String :=
  String.join (s.events.map Event.text)

/-- A line with the line feed that ends it, and what follows it. -/
def cutLine : Bytes → Bytes × Bytes
  | [] => ([], [])
  | b :: rest =>
    if b = 10 then ([b], rest)
    else
      let (line, rest) := cutLine rest
      (b :: line, rest)

def files? {α : Type} (f : FileSystem → Except IoFault α) : SessionM α := do
  match f (← get).files with
  | .ok a => pure a
  | .error fault => throw (.io fault)

def updateFiles (f : FileSystem → Except IoFault FileSystem) : SessionM Unit := do
  let fs ← files? f
  modify fun s => { s with files := fs }

def log (e : Event) : SessionM Unit :=
  modify fun s => { s with events := s.events ++ [e] }

def confirm (q : Question) : SessionM Bool := do
  let (line, rest) := cutLine (← get).input
  modify fun s => { s with input := rest }
  log (.asked q (isYes line))
  pure (isYes line)

def readInput : SessionM Bytes := do
  let input := (← get).input
  modify fun s => { s with input := [] }
  pure input

def typeLine : SessionM String := do
  match (← get).typed with
  | none => throw (.io .noTerminal)
  | some [] => throw (.io .inputEnded)
  | some (line :: rest) =>
    modify fun s => { s with typed := some rest }
    pure (typedText line)

/-- Each passphrase takes a line, and the one after the last fails. -/
def promptBound : SessionM Nat := do
  pure (((← get).typed.getD []).length + 1)

def draw {α : Type} (r : Random α) : SessionM α := do
  match r.run (← get).random with
  | .error f => throw f
  | .ok (a, rest) =>
    modify fun s => { s with random := rest }
    pure a

instance : Console SessionM where
  pathExists path := do pure ((← get).files.pathExists path)
  readFile path := files? (·.read path)
  writeFile access path content := updateFiles (·.write access path content)
  createFolders path := updateFiles (·.createFolders path)
  settingsFolder := do pure (← get).settingsFolder
  print text := log (.printed text)
  confirm
  readInput
  askPassphrase _ := typeLine
  promptBound
  draw

end Session

end SshKeys
