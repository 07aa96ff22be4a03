import ConventionLint.Rule.Database
import ConventionLint.Rule.Route
import ConventionLint.Rule.Signature
import ConventionLint.Rule.TestFile

/-! The rules that are known, by name. -/
namespace ConventionLint

open Rule

/-- Why a rule cannot be added or found. -/
inductive RegistryError where
  | targets (name targets : String)
  | twice (name : String)
  | unknown (name : String)
deriving DecidableEq

def RegistryError.message : RegistryError → String
  | targets name t =>
    "Rule '" ++ name ++ "': invalid targets '" ++ t ++ "', must be one of ['all', 'source', 'test']"
  | twice name => "Duplicate rule name '" ++ name ++ "'"
  | unknown name => "Unknown rule '" ++ name ++ "'"

/-- Rules in the order in which they were added. -/
structure Registry where
  entries : List Rule

namespace Registry

def builtin : Registry where
  entries :=
    [functionFileName, functionPathDepth, functionDefaultExport, functionDefaultExportIsFunction,
     functionSingleExport, functionParameterCount, functionPortalParameter, functionArgsParameter,
     functionReturnType, functionPortalDatabase, functionDbImportsTypeOnly,
     functionTestImportsTestingDb, controllerFileName, controllerDefaultExportIsFunction,
     controllerParameterCount, controllerPortalParameter, controllerArgsParameter,
     controllerReturnType, controllerPortalExcludesFunctions, databaseFileName,
     databaseFileNameMatchesDirectory, databasePathDepth, apiFileName, apiImportsElysia,
     apiDefaultExportIsElysia, apiElysiaHasPrefix, apiImportsController, noJavaScript,
     noTypeScriptInRoot, testDescribeWrapper]

variable (g : Registry)

/-- The rules in the order of their names. -/
def rules : List Rule := g.entries.mergeSort fun a b => decide (a.name ≤ b.name)

def get (name : String) : Except RegistryError Rule :=
  match g.entries.find? fun r => r.name = name with
  | some r => .ok r
  | none => .error (.unknown name)

/-- Adds a rule under a new name; the files it is for are given by a word. -/
def register (rule : Rule) (targets : String) : Except RegistryError Registry :=
  match Targets.ofName? targets with
  | none => .error (.targets rule.name targets)
  | some t =>
    if g.entries.any fun r => r.name = rule.name then .error (.twice rule.name)
    else .ok ⟨g.entries ++ [{ rule with targets := t }]⟩

/-- The rules for a file, of some names only, or those that need no content only. -/
def select (p : Place) (names : Option (List String)) (pathOnly : Bool) : List Rule :=
  g.rules.filter fun r =>
    r.governs p && names.all (·.contains r.name) && !(pathOnly && r.needsContent)

end Registry

end ConventionLint
