import SshKeys.Command.Request
import SshKeys.Json.Value

/-!
# Command lines

A command line names a command, and inside it a part of that command; at each
such level it may hold parameters, and at some the name of a file.  A long
parameter is `--name`, with its value behind `=` or as the next argument; a short
one is a letter, and letters can be joined behind one dash.  After `--` nothing
is a parameter.  Arguments are read from left to right, and the first thing that
is wrong, or that asks for help or the version, ends the reading.
-/

namespace SshKeys

/-- Why a command line is no request. -/
inductive NoRequest where
  | help
  | version
  | misuse
  deriving DecidableEq, Repr

/-! ## Parameters -/

inductive Parameter where
  | settings
  | verbose
  | help
  | version
  | algorithm
  | bits
  | format
  | cipher
  | comment
  | inTheClear
  | output
  | json
  deriving DecidableEq, Repr

/-- A number of at most 64 bits, which may have a plus sign. -/
def number64? (s : String) : Option Nat :=
  let digits := match s.toList with
    | '+' :: rest => rest
    | cs => cs
  if digits = [] then none else (JsonValue.number digits).nat64?

namespace Parameter

def name : Parameter → String
  | settings => "config"
  | verbose => "verbose"
  | help => "help"
  | version => "version"
  | algorithm => "algorithm"
  | bits => "bits"
  | format => "format"
  | cipher => "cipher"
  | comment => "comment"
  | inTheClear => "no-passphrase"
  | output => "output"
  | json => "json"

def letter? : Parameter → Option Char
  | verbose => some 'v'
  | help => some 'h'
  | version => some 'V'
  | algorithm => some 'a'
  | bits => some 'b'
  | format => some 'f'
  | cipher => some 'c'
  | comment => some 'C'
  | output => some 'o'
  | settings | inTheClear | json => none

def algorithmOf? (s : String) : Option KeyAlgorithm :=
  byName? KeyAlgorithm.name KeyAlgorithm.all s

def formatOf? (s : String) : Option KeyFormat :=
  byName? KeyFormat.name KeyFormat.all s

def cipherOf? (s : String) : Option CipherKind :=
  byName? CipherKind.settingName CipherKind.choices s

/-- Whether a parameter takes a value. -/
def takesValue : Parameter → Bool
  | settings | algorithm | bits | format | cipher | comment | output => true
  | verbose | help | version | inTheClear | json => false

/-- Whether a text can be the value of a parameter. -/
def accepts (p : Parameter) (s : String) : Bool :=
  match p with
  | settings | output => s ≠ ""
  | algorithm => (algorithmOf? s).isSome
  | bits => (number64? s).isSome
  | format => (formatOf? s).isSome
  | cipher => (cipherOf? s).isSome
  | comment => true
  | verbose | help | version | inTheClear | json => false

end Parameter

/-! ## Levels -/

/-- The program, its commands, and the parts of a command. -/
inductive Level where
  | program
  | generate
  | importKey
  | convert
  | inspect
  | settings
  | showSettings
  | initSettings
  deriving DecidableEq, Repr

namespace Level

def parameters : Level → List Parameter
  | program => [.settings, .verbose, .help, .version]
  | generate =>
    [.settings, .verbose, .help, .algorithm, .bits, .format, .cipher, .comment, .inTheClear,
      .output]
  | importKey => [.settings, .verbose, .help, .comment, .json]
  | convert => [.settings, .verbose, .help, .format, .cipher, .comment, .inTheClear, .output]
  | inspect => [.settings, .verbose, .help, .json]
  | settings | showSettings | initSettings => [.settings, .verbose, .help]

/-- Whether a level has a file. -/
def takesFile : Level → Bool
  | importKey | convert | inspect => true
  | program | generate | settings | showSettings | initSettings => false

/-- The levels inside a level, by name. -/
def inner : Level → List (String × Level)
  | program =>
    [("generate", generate), ("import", importKey), ("convert", convert), ("inspect", inspect),
      ("config", settings)]
  | settings => [("show", showSettings), ("init", initSettings)]
  | generate | importKey | convert | inspect | showSettings | initSettings => []

/-- Answers a question for help on the levels of the given names. -/
def helpOn : Level → List String → NoRequest
  | _, [] => .help
  | level, name :: rest =>
    match level.inner.lookup name with
    | some level => level.helpOn rest
    | none => if name = "help" ∧ level.inner ≠ [] ∧ rest = [] then .help else .misuse

end Level

/-! ## Reading -/

/-- What was read so far: the level, and the parameters and the file given at it. -/
structure CommandLine where
  level : Level := .program
  given : List (Parameter × String) := []
  file : Option String := none
  /-- The parameters of the levels outside, from the inside out. -/
  outside : List (Parameter × String) := []
  deriving DecidableEq, Repr

namespace CommandLine

/-- Goes on at a level inside. -/
def enter (c : CommandLine) (level : Level) : CommandLine :=
  { level, outside := c.given ++ c.outside }

/-- Takes a parameter that can be given once at a level. -/
def add (c : CommandLine) (p : Parameter) (value : String) : Except NoRequest CommandLine :=
  if p = .help then .error .help
  else if p = .version then .error .version
  else if (c.given.lookup p).isSome ∨ p.takesValue ∧ !p.accepts value then .error .misuse
  else .ok { c with given := (p, value) :: c.given }

def addFile (c : CommandLine) (path : String) : Except NoRequest CommandLine :=
  if c.level.takesFile ∧ c.file = none ∧ path ≠ "" then .ok { c with file := some path }
  else .error .misuse

/-- A parameter whose value is still to come. -/
abbrev Pending := Option Parameter

/-- Reads what is behind two dashes. -/
def addLong (c : CommandLine) (cs : List Char) : Except NoRequest (CommandLine × Pending) := do
  let name := cs.takeWhile (· ≠ '=')
  match c.level.parameters.find? (·.name.toList = name), cs.drop name.length with
  | none, _ => throw .misuse
  | some p, [] => if p.takesValue then pure (c, some p) else pure (← c.add p "", none)
  | some p, _ :: value =>
    if p.takesValue then pure (← c.add p (String.ofList value), none) else throw .misuse

/-- Reads the letters behind one dash.  The first that takes a value takes what is left. -/
def addShort (c : CommandLine) : List Char → Except NoRequest (CommandLine × Pending)
  | [] => .ok (c, none)
  | letter :: rest => do
    match c.level.parameters.find? (·.letter? = some letter) with
    | none => throw .misuse
    | some p =>
      if p.takesValue then
        match rest with
        | [] => pure (c, some p)
        | '=' :: value => pure (← c.add p (String.ofList value), none)
        | value => pure (← c.add p (String.ofList value), none)
      else addShort (← c.add p "") rest

/-- Reads arguments of which none is a parameter. -/
def addFiles (c : CommandLine) (files : List String) : Except NoRequest CommandLine :=
  files.foldlM addFile c

def readFrom (c : CommandLine) (pending : Pending) :
    List String → Except NoRequest CommandLine
  | [] => if pending.isSome then .error .misuse else .ok c
  | word :: rest =>
    match pending, word.toList with
    | some p, cs => do
      if cs.head? = some '-' ∧ cs ≠ ['-'] then throw .misuse
      readFrom (← c.add p word) none rest
    | none, '-' :: '-' :: [] => c.addFiles rest
    | none, '-' :: '-' :: cs => do
      let (c, pending) ← c.addLong cs
      readFrom c pending rest
    | none, '-' :: c₁ :: cs => do
      let (c, pending) ← c.addShort (c₁ :: cs)
      readFrom c pending rest
    | none, _ =>
      match c.level.inner.lookup word with
      | some level => readFrom (c.enter level) none rest
      | none =>
        if word = "help" ∧ c.level.inner ≠ [] then .error (c.level.helpOn rest)
        else do readFrom (← c.addFile word) none rest

/-! ## Requests -/

def value? (c : CommandLine) (p : Parameter) : Option String :=
  c.given.lookup p

def has (c : CommandLine) (p : Parameter) : Bool :=
  (c.value? p).isSome

/-- What is to be done, if everything needed was given. -/
def task? (c : CommandLine) : Option Task :=
  match c.level with
  | .program | .settings => none
  | .generate =>
    some (.generate
      { algorithm := (c.value? .algorithm).bind Parameter.algorithmOf?
        bits := (c.value? .bits).bind number64?
        format := (c.value? .format).bind Parameter.formatOf?
        cipher := (c.value? .cipher).bind Parameter.cipherOf?
        comment := c.value? .comment
        inTheClear := c.has .inTheClear
        output := c.value? .output })
  | .convert => do
    let source ← c.file
    let format ← (c.value? .format).bind Parameter.formatOf?
    pure (.convert
      { source, format
        cipher := (c.value? .cipher).bind Parameter.cipherOf?
        comment := c.value? .comment
        inTheClear := c.has .inTheClear
        output := c.value? .output })
  | .importKey => do pure (.importKey (← c.file) (c.value? .comment) (c.has .json))
  | .inspect => do pure (.inspect (← c.file) (c.has .json))
  | .showSettings => some .showSettings
  | .initSettings => some .initSettings

end CommandLine

/-- The request of a command line.  The innermost settings file counts. -/
def Request.ofArguments (arguments : List String) : Except NoRequest Request := do
  let c ← CommandLine.readFrom { } none arguments
  match c.task? with
  | none => throw .misuse
  | some task => pure ⟨(c.given ++ c.outside).lookup .settings, task⟩

end SshKeys
