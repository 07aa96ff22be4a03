import ConventionLint.Conventions.Load
import ConventionLint.Rule.Dispatch

/-! The rules on all files of a project. -/
namespace ConventionLint

open Data Text

/-- What a run over a project found. -/
structure Report where
  diagnostics : List Diagnostic := []
  rulesEvaluated : Nat := 0
  filesScanned : Nat := 0
  errors : List String := []
  /-- The time it took, in milliseconds. -/
  elapsed : Number := .float 0.0

/-- Why there is no report. -/
inductive LintError where
  | path (e : FileError)
  | configuration (e : LoadError)
  | load (e : LoadError)
  | failure (e : Failure)

def LintError.message : LintError → String
  | path e => e.message
  | configuration e => "Invalid configuration: " ++ e.message
  | load e => e.message
  | failure e => e.message

/-- What a run is about: a project, its configuration file if it is not to be found there, some
files if not all are meant, and whether their content counts. -/
structure LintRequest where
  root : Path
  config : Option Path := none
  files : Option (List Path) := none
  pathOnly : Bool := false

/-- Whether all files that are named can be asked for. -/
def LintRequest.namesValid (q : LintRequest) : Bool := q.files.all (·.all Path.isValid)

/-- Whether the project and all files that are named can be asked for. -/
def LintRequest.isValid (q : LintRequest) : Bool := q.root.isValid && q.namesValid

namespace Lint

/-- Extensions of the files that are visited. -/
def extensions : List String := Module.dialects.map (·.1) ++ Rule.scriptSuffixes

/-- Whether a file of a project is visited, by its components from the project on. -/
def isVisited (parts : List String) : Bool :=
  extensions.contains (String.ofList (lower (Path.suffixOf (parts.getLastD "")).toList)) &&
    !parts.any ignoredDirectories.contains

/-- The files of a project that are visited, in order. -/
def projectFiles (d : Volume) (root : List String) : List Path :=
  ((d.filesBelow root).filter isVisited).map fun parts => ⟨.root, root ++ parts⟩

/-- What was found in some files. -/
structure Tally where
  findings : Findings := {}
  filesScanned : Nat := 0

def Tally.append (a b : Tally) : Tally :=
  { findings :=
      { diagnostics := a.findings.diagnostics ++ b.findings.diagnostics
        errors := a.findings.errors ++ b.findings.errors }
    filesScanned := a.filesScanned + b.filesScanned }

variable (g : Registry) (root : Path) (c : Conventions) (pathOnly : Bool)

/-- The content of a file, which is empty if only its path counts. -/
def content (d : Volume) (file : Path) : Except ReadError String :=
  if pathOnly then .ok "" else d.readText file

/-- A file with its content, as the rules see it. -/
def contextOf (d : Volume) (file : Path) (content : String) : Context :=
  { directory := root, file := file.toString, conventions := c
    workingDirectory := d.workingDirectory, links := d.links, content }

/-- Runs the rules for one file. A file that no rule is for is not counted. -/
def visit (file : Path) : Run Tally := do
  let d ← read
  match content pathOnly d file with
  | .error e =>
    Run.record .warning .linter ("Skipping unreadable file " ++ file.toString ++ ": " ++ e.message)
    return { findings := { errors := [file.toString ++ ": " ++ e.message] } }
  | .ok text =>
    let x := contextOf root c d file text
    match g.select x.toPlace none pathOnly with
    | [] => return {}
    | rules => return { findings := ← Rule.runAll x rules, filesScanned := 1 }

def visitAll : List Path → Run Tally
  | [] => return {}
  | file :: r => do
    let tally ← visit g root c pathOnly file
    return tally.append (← visitAll r)

/-- Diagnostics are ordered by file and then by rule. -/
def before (a b : Diagnostic) : Bool :=
  if a.file = b.file then decide (a.rule ≤ b.rule) else decide (a.file ≤ b.file)

def report (start finish : Number) (t : Tally) : Report :=
  { diagnostics := t.findings.diagnostics.mergeSort before
    rulesEvaluated := g.entries.length
    filesScanned := t.filesScanned
    errors := t.findings.errors
    elapsed := (finish.sub start).mul (.int 1000) }

def summary (r : Report) : String :=
  "Linted " ++ toString r.filesScanned ++ " file(s): " ++ toString r.diagnostics.length
    ++ " diagnostic(s), " ++ toString r.errors.length ++ " error(s)"

end Lint

/-- Runs the rules over a project, between two times of a clock in seconds. -/
def lint (g : Registry) (d : Volume) (q : LintRequest) (start finish : Number) :
    Except LintError Report × List LogRecord :=
  let root := d.absolute q.root
  if !q.root.isValid then (.error (.path .invalidPath), [])
  else match Conventions.ofProject d root q.config with
  | .error e =>
    (.error (if e.isInvalid || e.isUnreadable then .configuration e else .load e), [])
  | .ok c =>
    let files := match q.files with
      | some paths => paths.map d.absolute
      | none => Lint.projectFiles d root.parts
    if !q.namesValid then (.error (.path .invalidPath), [])
    else match (Lint.visitAll g root c q.pathOnly files).exec d { resources := ⟨root, c, none⟩ } with
    | (.error e, s) => (.error (.failure e), s.log)
    | (.ok tally, s) =>
      let r := Lint.report g start finish tally
      (.ok r, s.log ++ [⟨.debug, .linter, Lint.summary r⟩])

end ConventionLint
