import ConventionLint.Conventions.Reader
import ConventionLint.Data.Yaml.Resolve
import ConventionLint.Disk

/-! Conventions of a project, from its configuration file. -/
namespace ConventionLint

open Data

/-- Why conventions cannot be loaded. -/
inductive LoadError where
  | read (e : ReadError)
  | yaml (e : Yaml.Error)
  | config (e : ConfigError)

def LoadError.message : LoadError → String
  | read e => e.message
  | yaml e => e.message
  | config e => e.message

/-- Whether a file is there and its content is not what it should be. -/
def LoadError.isInvalid : LoadError → Bool
  | read (.file .invalidPath) => true
  | read (.file _) => false
  | read (.decode _) => true
  | yaml .malformed => false
  | yaml (.bool _) => false
  | yaml _ => true
  | config (.versionType _) => false
  | config _ => true

/-- Whether a file cannot be read at all. -/
def LoadError.isUnreadable : LoadError → Bool
  | read (.file .invalidPath) => false
  | read (.file _) => true
  | _ => false

namespace Conventions

/-- Names of configuration files, the first that is there counts. -/
def fileNames : List String := ["bakelint.yml", ".bakelint.yml"]

def ofText (text : String) : Except LoadError Conventions :=
  match Yaml.load text.toList with
  | .error e => .error (.yaml e)
  | .ok v =>
    match ofValue v with
    | .error e => .error (.config e)
    | .ok c => .ok c

def load (d : Volume) (p : Path) : Except LoadError Conventions :=
  match d.readStream p with
  | .error e => .error (.read e)
  | .ok text => ofText text

/-- The first of some paths that leads to a file. -/
def firstFile? (d : Volume) : List Path → Except FileError (Option Path)
  | [] => .ok none
  | p :: r =>
    match d.isFile p with
    | .error e => .error e
    | .ok true => .ok (some p)
    | .ok false => firstFile? d r

/-- The configuration file of a project. -/
def find? (d : Volume) (root : Path) : Except FileError (Option Path) :=
  firstFile? d (fileNames.map fun n => root.join (Path.parse n))

/-- The conventions of a project: those of the file that is given, else of the one that is found. -/
def ofProject (d : Volume) (root : Path) (file : Option Path) : Except LoadError Conventions :=
  match file with
  | some p => load d p
  | none =>
    match find? d root with
    | .error e => .error (.read (.file e))
    | .ok (some p) => load d p
    | .ok none => .ok {}

end Conventions

end ConventionLint
