import ConventionLint.Module.Construction
import ConventionLint.Module.Import
import ConventionLint.Module.ObjectType
import ConventionLint.Run
import ConventionLint.Text.Line

/-! Rules: checks of one file against the conventions. -/
namespace ConventionLint

open Text

/-- A file by its path, with the conventions it has to keep. -/
structure Place where
  directory : Path
  file : String
  conventions : Conventions
  /-- Where relative directories start. -/
  workingDirectory : Path
  /-- The links that paths may lead through. -/
  links : Links := []

/-- A file with its content. -/
structure Context extends Place where
  content : String

namespace Place

variable (p : Place)

def absolutePath : Path := p.directory.join (Path.parse p.file)

/-- The path from the project's directory, none for a file outside of it. -/
def relativePath? : Option String :=
  Path.relative? p.workingDirectory p.directory (Path.parse p.file) p.links

def fileName : String := p.absolutePath.name

def area? : Option Area := p.relativePath?.bind p.conventions.areaOf?

def isTest : Bool := isTestFile p.file (p.conventions.setting .testMarker)

/-- Whether the file is in a directory of generated or foreign files. -/
def isIgnored : Bool :=
  p.relativePath?.any fun path =>
    (splitAt '/' path.toList).any fun part => ignoredDirectories.contains (String.ofList part)

/-- The path below the root of the file's area. -/
def areaRelative? : Option String := do
  let a ← p.area?
  let path ← p.relativePath?
  return String.ofList (path.toList.drop (p.conventions.areaFront a).length)

/-- The components of the path below the area. -/
def areaParts : List String :=
  (splitAt '/' (p.areaRelative?.getD "").toList).map String.ofList

/-- Points to what can be read about the file's area. -/
def docPointer : String := p.area?.elim "" p.conventions.areaPointer

end Place

/-- The module of a file's content. -/
def Context.module (c : Context) : Run Module := Run.ofExcept .parse (Module.parse c.content c.file)

/-- What a rule finds in a file. -/
inductive Outcome where
  | pass
  | fail (message : Option String)
  | notApplicable (reason : Option String)
deriving DecidableEq

namespace Outcome

def failed (message : String) : Outcome := fail (some message)

/-- Passes if the condition holds, else fails with the message. -/
def passIf (condition : Bool) (message : String) : Outcome :=
  if condition then pass else failed message

def skipped (reason : String) : Outcome := notApplicable (some reason)

def status : Outcome → String
  | pass => "pass"
  | fail _ => "fail"
  | notApplicable _ => "not-applicable"

def message? : Outcome → Option String
  | fail message => message
  | _ => none

def reason? : Outcome → Option String
  | notApplicable reason => reason
  | _ => none

end Outcome

/-- The files of an area that a rule is for. -/
inductive Targets where
  | source
  | test
  | all
deriving DecidableEq

namespace Targets

def name : Targets → String
  | source => "source"
  | test => "test"
  | all => "all"

def ofName? (s : String) : Option Targets := [source, test, all].find? fun t => t.name = s

end Targets

structure Rule where
  name : String
  area : String
  description : String
  targets : Targets := .source
  /-- Whether the rule looks at the content and not only at the path. -/
  needsContent : Bool := true
  check : Context → Run Outcome

namespace Rule

/-- A rule on the path of a file. -/
def onPath (name area description : String) (targets : Targets) (check : Place → Run Outcome) :
    Rule :=
  { name, area, description, targets, needsContent := false, check := fun c => check c.toPlace }

/-- Whether a rule is for a file. General rules are for all files of the project that are not
ignored, the others for the files of their area. -/
def governs (r : Rule) (p : Place) : Bool :=
  (if r.area = generalArea then p.relativePath?.isSome && !p.isIgnored
    else (p.area?.map (·.name)) = some r.area) &&
  (match r.targets with
    | .source => !p.isTest
    | .test => p.isTest
    | .all => true)

end Rule

end ConventionLint
