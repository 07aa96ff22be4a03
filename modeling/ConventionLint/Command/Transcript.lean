import ConventionLint.Command.Basic
import ConventionLint.Report
import ConventionLint.Table

/-! What commands print, and how they end. -/
namespace ConventionLint.Command

open Data

inductive Line where
  | out (text : String)
  | error (text : String)
  | log (record : LogRecord)

/-- Why a command breaks off. -/
inductive Breakage where
  | path (e : FileError)
  | load (e : LoadError)
  | failure (e : Failure)

def Breakage.message : Breakage → String
  | path e => e.message
  | load e => e.message
  | failure e => e.message

/-- What is printed, in order, and the exit code. -/
structure Transcript where
  lines : List Line := []
  code : Nat := 0
  broken : Option Breakage := none

namespace Transcript

/-- An error that the command reports itself. -/
def failed (log : List LogRecord) (message : String) : Transcript :=
  { lines := log.map .log ++ [.error ("Error: " ++ message)], code := 2 }

def brokenOff (log : List LogRecord) (b : Breakage) : Transcript :=
  { lines := log.map .log, code := 1, broken := some b }

/-- What goes to the output. -/
def output (t : Transcript) : String :=
  String.join (t.lines.map fun
    | .out text => text ++ "\n"
    | _ => "")

end Transcript

/-- A record of the log as it is shown, if it is. -/
def Verbosity.shown? (v : Verbosity) (r : LogRecord) : Option String :=
  match v with
  | .all => some r.line
  | .warnings => if r.level = .warning then some r.text else none
  | .silent => none

/-- What goes to the error output. -/
def Transcript.errors (v : Verbosity) (t : Transcript) : String :=
  String.join (t.lines.map fun
    | .out _ => ""
    | .error text => text ++ "\n"
    | .log r => (v.shown? r).elim "" (· ++ "\n"))

def Format.render (r : Report) : Format → String
  | text => r.toText
  | json => r.toJson
  | lines => r.toLines

variable (g : Registry) (d : Volume)

/-- The directory of the project, as it is given. -/
def Target.directory (t : Target) : Path := t.project.getD d.workingDirectory

/-- The directory of the project. -/
def Target.root (t : Target) : Path := d.absolute (t.directory d)

def lintTranscript (format : Format) (strict : Bool) (t : Target) (start finish : Number) :
    Transcript :=
  match lint g d { root := t.directory d, config := t.config } start finish with
  | (.error (.path e), log) => .brokenOff log (.path e)
  | (.error (.configuration e), log) => .failed log (LintError.configuration e).message
  | (.error (.load e), log) => .brokenOff log (.load e)
  | (.error (.failure e), log) => .brokenOff log (.failure e)
  | (.ok r, log) =>
    let text := format.render r
    { lines := log.map .log ++ (if text = "" then [] else [.out text])
      code := if strict && !r.diagnostics.isEmpty then 1 else 0 }

/-- What was found in files that were checked one by one. -/
structure Checked where
  lines : List Line := []
  found : Nat := 0
  unreadable : Nat := 0
  broken : Option Breakage := none

def diagnosticLine (x : Diagnostic) : Line :=
  .out (x.file ++ ": [" ++ x.rule ++ "] " ++ x.error)

/-- Checks files one by one. What is known of the project is kept from one to the next. -/
def checkFiles (names : Option (List String)) (pathsOnly : Bool) :
    Resources → List Path → Checked
  | _, [] => {}
  | s, file :: r =>
    let place := d.absolute file
    if !file.isValid then { broken := some (.path .invalidPath) }
    else match Lint.content pathsOnly d place with
    | .error e =>
      let rest := checkFiles names pathsOnly s r
      { rest with
        lines := .error ("Error: cannot read " ++ file.toString ++ ": " ++ e.message) :: rest.lines
        unreadable := rest.unreadable + 1 }
    | .ok text =>
      let x := Lint.contextOf s.root s.conventions d place text
      match (g.dispatch x names pathsOnly).exec d { resources := s } with
      | (.error e, s) => { lines := s.log.map .log, broken := some (.failure e) }
      | (.ok found, s) =>
        let rest := checkFiles names pathsOnly s.resources r
        { rest with
          lines := s.log.map .log ++ found.map diagnosticLine ++ rest.lines
          found := found.length + rest.found }

def Checked.code (c : Checked) : Nat :=
  if c.broken.isSome then 1 else if 0 < c.found then 1 else if 0 < c.unreadable then 2 else 0

/-- The conventions of a project for a command that goes on with them. -/
def withConventions (t : Target) (next : Conventions → Transcript) : Transcript :=
  if !(t.directory d).isValid then .brokenOff [] (.path .invalidPath)
  else match Conventions.ofProject d (t.root d) t.config with
  | .error e => if e.isInvalid then .failed [] e.message else .brokenOff [] (.load e)
  | .ok c => next c

def checkTranscript (files : List Path) (pathsOnly : Bool) (rules : List String) (t : Target) :
    Transcript :=
  withConventions d t fun c =>
    match rules.mapM g.get with
    | .error e => .failed [] e.message
    | .ok _ =>
      let names := if rules.isEmpty then none else some rules
      let checked := checkFiles g d names pathsOnly ⟨t.root d, c, none⟩ files
      { lines := checked.lines, code := checked.code, broken := checked.broken }

def ruleRow (r : Rule) : List String :=
  [r.name, r.area, r.targets.name, if r.needsContent then "content" else "path", r.description]

def rulesTranscript (area : Option String) : Transcript :=
  let table : Table :=
    { title := "Rules", header := ["rule", "area", "files", "phase", "description"]
      rows := (g.rules.filter fun r => area.all (r.area = ·)).map ruleRow }
  { lines := table.lines.map .out }

def databaseValue (v : DatabaseVariable) : Value :=
  Report.object [("name", .text v.name), ("testing_factory", .text v.testingFactory),
    ("module_path", .text v.modulePath)]

def catalogLines (json : Bool) (c : Catalog) : List Line :=
  if json then [.out (Json.render false (.list (c.toList.map databaseValue)))]
  else if c.size = 0 then [.out "No database variables found."]
  else
    let table : Table :=
      { title := "Database variables", header := ["variable", "testing factory", "module"]
        rows := c.toList.map fun v => [v.name, v.testingFactory, v.modulePath] }
    table.lines.map .out

def databasesTranscript (json : Bool) (t : Target) : Transcript :=
  withConventions d t fun c =>
    match findDatabases d (t.root d) c with
    | (.error (.pattern .absolute), log) => .brokenOff log (.failure (.scan (.pattern .absolute)))
    | (.error (.file e), log) => .brokenOff log (.failure (.scan (.file e)))
    | (.error e, log) => .failed log e.message
    | (.ok catalog, log) => { lines := log.map .log ++ catalogLines json catalog }

/-- Carries out a task. Reports are for people on a terminal, and for programs elsewhere. -/
def Task.transcript (terminal : Bool) (start finish : Number) : Task → Transcript
  | .lint format strict t =>
    lintTranscript g d (format.getD (if terminal then .text else .lines)) strict t start finish
  | .check files pathsOnly names t => checkTranscript g d files pathsOnly names t
  | .rules area => rulesTranscript g area
  | .databases json t => databasesTranscript d json t

def usageLine : Option Name → String
  | none => "Usage: bakelint [OPTIONS] COMMAND [ARGS]..."
  | some .check => "Usage: bakelint check [OPTIONS] " ++ filesParameter
  | some name => "Usage: bakelint " ++ name.toString ++ " [OPTIONS]"

def helpHint (command : Option Name) : String :=
  "Try 'bakelint " ++ command.elim "" (·.toString ++ " ") ++ "--help' for help."

def Misuse.transcript (m : Misuse) : Transcript :=
  { lines := [.error (usageLine m.command), .error (helpHint m.command), .error "",
      .error ("Error: " ++ m.error.message)]
    code := 2 }

def helpLines (command : Option Name) : List String :=
  usageLine command :: "" :: "Options:" :: (options command).map ("  " ++ ·.name)
    ++ (if command.isNone then "" :: "Commands:" :: Name.all.map ("  " ++ ·.toString) else [])

/-- Carries out a command line; gives what is printed, and which records of the log are shown. -/
def transcript (terminal : Bool) (start finish : Number) (words : List String) :
    Transcript × Verbosity :=
  match Request.read d words with
  | .error m => (m.transcript, .warnings)
  | .ok .version => ({ lines := [.out "bakelint, version 0.1.0"] }, .warnings)
  | .ok (.help command) => ({ lines := (helpLines command).map .out }, .warnings)
  | .ok .overview => ({ lines := (helpLines none).map .error, code := 2 }, .warnings)
  | .ok (.run v task) => (task.transcript g d terminal start finish, v)

end ConventionLint.Command
