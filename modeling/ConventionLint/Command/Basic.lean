import ConventionLint.Command.Words
import ConventionLint.Disk

/-! The commands, and how they are read from a command line. -/
namespace ConventionLint.Command

open Text

/-- How a report is printed. -/
inductive Format where
  | text
  | json
  | lines
deriving DecidableEq

def Format.named : List (String × Format) := [("rich", text), ("json", json), ("porcelain", lines)]

def Format.ofString? (s : String) : Option Format := (named.find? fun f => f.1 = s).map (·.2)

inductive Name where
  | lint
  | check
  | rules
  | databases
deriving DecidableEq

namespace Name

def all : List Name := [lint, check, rules, databases]

def toString : Name → String
  | lint => "lint"
  | check => "check"
  | rules => "rules"
  | databases => "databases"

def ofString? (s : String) : Option Name := all.find? fun n => n.toString = s

end Name

def helpOption : OptionSpec := ⟨"--help", .flag, none⟩

def projectOptions : List OptionSpec :=
  [⟨"--config", .file, none⟩, ⟨"--project", .directory, none⟩]

/-- The options of a command, or those before it. -/
def options : Option Name → List OptionSpec
  | none =>
    [⟨"--version", .flag, none⟩, ⟨"--verbose", .flag, some 'v'⟩, ⟨"--quiet", .flag, some 'q'⟩,
     helpOption]
  | some .lint =>
    [⟨"--format", .choice (Format.named.map (·.1)), none⟩, ⟨"--strict", .flag, none⟩]
      ++ projectOptions ++ [helpOption]
  | some .check =>
    [⟨"--paths-only", .flag, none⟩, ⟨"--rule", .text, none⟩] ++ projectOptions ++ [helpOption]
  | some .rules => [⟨"--area", .text, none⟩, helpOption]
  | some .databases => [⟨"--json", .flag, none⟩] ++ projectOptions ++ [helpOption]

/-- The project that a command is about. -/
structure Target where
  config : Option Path := none
  project : Option Path := none

inductive Task where
  | lint (format : Option Format) (strict : Bool) (target : Target)
  | check (files : List Path) (pathsOnly : Bool) (rules : List String) (target : Target)
  | rules (area : Option String)
  | databases (json : Bool) (target : Target)

/-- Which records of the log are shown. -/
inductive Verbosity where
  | all
  | warnings
  | silent
deriving DecidableEq

/-- What a command line asks for. -/
inductive Request where
  | version
  | help (command : Option Name)
  | overview
  | run (verbosity : Verbosity) (task : Task)

/-- A wrong command line, and which command it is wrong for. -/
structure Misuse where
  command : Option Name
  error : UsageError

/-- The name of the parameter for files. -/
def filesParameter : String := "FILES..."

variable (d : Volume)

/-- What a value leads to, as a file or directory. -/
def entryAt? (value : String) : Option Entry :=
  match d.find (Path.parse value) with
  | .ok .directory => if value = "" then none else some .directory
  | .ok (.file bytes) =>
    if value.endsWith "/" || value.endsWith "/." then none else some (.file bytes)
  | .error _ => none

def checkFilePath (parameter value : String) : Except UsageError Unit :=
  match entryAt? d value with
  | none => .error (.noSuchPath parameter "File" value)
  | some .directory => .error (.otherPath parameter "File" value "directory")
  | some (.file _) => .ok ()

def checkDirectory (parameter value : String) : Except UsageError Unit :=
  match entryAt? d value with
  | none => .error (.noSuchPath parameter "Directory" value)
  | some (.file _) => .error (.otherPath parameter "Directory" value "file")
  | some .directory => .ok ()

def OptionSpec.check (s : OptionSpec) (value : String) : Except UsageError Unit :=
  match s.kind with
  | .flag | .text => .ok ()
  | .choice names => if names.contains value then .ok () else .error (.noChoice s.name value names)
  | .file => checkFilePath d s.name value
  | .directory => checkDirectory d s.name value

/-- Checks the values of options, in the order in which they are given. -/
def checkOptions (specs : List OptionSpec) (w : Words) : Except UsageError Unit :=
  w.names.forM fun name =>
    match named? specs name, w.value? name with
    | some s, some value => s.check d value
    | _, _ => .ok ()

def Target.ofWords (w : Words) : Target :=
  { config := (w.value? "--config").map Path.parse
    project := (w.value? "--project").map Path.parse }

def noArguments (w : Words) (task : Task) : Except UsageError Task :=
  if w.arguments.isEmpty then .ok task else .error (.extraArguments w.arguments)

/-- The task of a command with checked options. -/
def Name.task (w : Words) : Name → Except UsageError Task
  | .lint => noArguments w <| .lint ((w.value? "--format").bind Format.ofString?)
      (w.has "--strict") (.ofWords w)
  | .check => do
    if w.arguments.isEmpty then .error (.argumentMissing filesParameter)
    w.arguments.forM (checkFilePath d filesParameter)
    return .check (w.arguments.map Path.parse) (w.has "--paths-only") (w.values "--rule") (.ofWords w)
  | .rules => noArguments w (.rules (w.value? "--area"))
  | .databases => noArguments w (.databases (w.has "--json") (.ofWords w))

/-- The task of a command with the words after it; none if help is asked for. -/
def Name.read (name : Name) (words : List String) : Except UsageError (Option Task) := do
  let w ← Words.read (options (some name)) true words
  if w.has "--help" then return none
  checkOptions d (options (some name)) w
  return some (← name.task d w)

/-- The directory of the project that a command line is about; none if it is about no project. -/
def projectOf? (words : List String) : Option String := do
  let w ← (Words.read (options none) false words).toOption
  let name ← Name.ofString? (← w.arguments.head?)
  let rest ← (Words.read (options (some name)) true w.arguments.tail).toOption
  if name = .rules then none else some ((rest.value? "--project").getD ".")

def verbosity (w : Words) : Verbosity :=
  if w.has "--verbose" then .all else if w.has "--quiet" then .silent else .warnings

/-- Reads a command line. -/
def Request.read (words : List String) : Except Misuse Request :=
  match Words.read (options none) false words with
  | .error e => .error ⟨none, e⟩
  | .ok w =>
    match w.names.find? fun n => n = "--version" || n = "--help" with
    | some n => .ok (if n = "--version" then .version else .help none)
    | none =>
      match w.arguments with
      | [] => if words.isEmpty then .ok .overview else .error ⟨none, .commandMissing⟩
      | first :: rest =>
        match Name.ofString? first with
        | none => .error ⟨none, .noSuchCommand first (similar first (Name.all.map (·.toString)))⟩
        | some name =>
          match name.read d rest with
          | .error e => .error ⟨some name, e⟩
          | .ok none => .ok (.help (some name))
          | .ok (some task) => .ok (.run (verbosity w) task)

end ConventionLint.Command
