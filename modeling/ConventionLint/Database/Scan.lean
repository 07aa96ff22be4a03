import ConventionLint.Conventions.Basic
import ConventionLint.Database.Catalog
import ConventionLint.Glob
import ConventionLint.Module.Export

/-! Database variables from the connection modules of a project. -/
namespace ConventionLint

/-- Why the databases of a project cannot be told. -/
inductive ScanError where
  | pattern (e : Glob.PatternError)
  | file (e : FileError)
  | outside (path root : String)
  | collision (e : Collision)
deriving DecidableEq

def ScanError.message : ScanError → String
  | pattern e => e.message
  | file e => e.message
  | outside path root =>
    Text.quoted path ++ " is not in the subpath of " ++ Text.quoted root
      ++ " OR one path is relative and the other is absolute."
  | collision e => e.message

namespace Scan

variable (d : Volume) (root : Path) (c : Conventions)

/-- The directory that holds the database area. -/
def directory : Path := root.join (Path.parse (c.setting .databaseArea))

/-- The failure of a search below a directory. -/
def searchError (base : Path) : Glob.SearchError → ScanError
  | .pattern e => .pattern e
  | .nameTooLong parts =>
    .file (.nameTooLong ({ base with parts := base.parts ++ parts } : Path).toString)

/-- Modules that may declare databases, in order. -/
def connectionModules : Except ScanError (List Path) :=
  let base := directory root c
  match Glob.files d (d.resolve base) (c.setting .connectionMarker ++ "*") with
  | .error e => .error (searchError base e)
  | .ok found =>
    let paths := found.map fun parts => ({ base with parts := base.parts ++ parts } : Path)
    .ok <| paths.filter fun p =>
      (Module.dialects.lookup p.suffix).isSome && !p.parts.contains "node_modules"

/-- A path as seen from the project. -/
def relativeTo (p : Path) : Except ScanError String :=
  match Path.below? root.parts p.parts with
  | some parts =>
    if p.anchor = root.anchor then .ok (Path.render parts)
    else .error (.outside p.toString root.toString)
  | none => .error (.outside p.toString root.toString)

/-- The variables that a module declares; one that cannot be read or parsed declares none. -/
def variablesOf (path : String) (content : Except ReadError String) :
    List DatabaseVariable × List LogRecord :=
  match content with
  | .error e =>
    ([], [⟨.warning, .databases, "Skipping unreadable connection module " ++ path ++ ": "
      ++ e.message⟩])
  | .ok text =>
    match Module.parse text path with
    | .error e =>
      ([], [⟨.warning, .databases, "Skipping connection module " ++ path ++ ": " ++ e.message⟩])
    | .ok m =>
      let suffix := c.setting .databaseSuffix
      let names := m.exportedVariables.filter fun n =>
        (Text.before? suffix.toList n.toList).isSome
      (names.map fun n => ⟨n, path, testingFactoryName n suffix⟩, [])

/-- The variables of all modules, in order. -/
def collect : List Path → Except ScanError (List DatabaseVariable) × List LogRecord
  | [] => (.ok [], [])
  | p :: r =>
    match relativeTo root p with
    | .error e => (.error e, [])
    | .ok path =>
      let (vs, log) := variablesOf c path (d.readText p)
      let (more, logs) := collect r
      (more.map (vs ++ ·), log ++ logs)

/-- The record of what was found. -/
def discovered (catalog : Catalog) : LogRecord :=
  ⟨.debug, .databases, "Discovered " ++ toString catalog.size ++ " database variable(s): ["
    ++ ", ".intercalate (catalog.names.map Text.quoted) ++ "]"⟩

end Scan

/-- The databases of a project; without a database area there are none. -/
def findDatabases (d : Volume) (root : Path) (c : Conventions) :
    Except ScanError Catalog × List LogRecord :=
  let base := Scan.directory root c
  match d.isDirectory base with
  | .error e => (.error (.file e), [])
  | .ok false => (.ok {}, [⟨.debug, .databases, "No database directory at " ++ base.toString⟩])
  | .ok true =>
    match Scan.connectionModules d root c with
    | .error e => (.error e, [])
    | .ok modules =>
      match Scan.collect d root c modules with
      | (.error e, log) => (.error e, log)
      | (.ok found, log) =>
        match Catalog.ofList found with
        | (.error e, more) => (.error (.collision e), log ++ more)
        | (.ok catalog, more) => (.ok catalog, log ++ more ++ [Scan.discovered catalog])

end ConventionLint
