import ConventionLint.Rule.Registry

/-! Rules at work on one file. -/
namespace ConventionLint

/-- A rule that a file breaks. -/
structure Diagnostic where
  rule : String
  error : String
  file : String
deriving DecidableEq

/-- What the rules found in a file, and which of them gave no answer. -/
structure Findings where
  diagnostics : List Diagnostic := []
  errors : List String := []
deriving DecidableEq

namespace Rule

/-- What a rule finds in a file. It does not apply to files it is not for and to content that is no
module. -/
def outcome (r : Rule) (c : Context) : Run Outcome := do
  if !r.governs c.toPlace then return .skipped ("not governed by " ++ r.name)
  else
    match ← (r.check c).attempt with
    | .ok o => return o
    | .error e => if e.isParse then return .skipped e.message else Run.fail e

def evaluate (r : Rule) (c : Context) : Run Outcome := do
  let o ← r.outcome c
  if let some reason := o.reason? then
    Run.record .debug .dispatcher (r.name ++ " inapplicable to " ++ c.file ++ ": " ++ reason)
  return o

/-- A failed outcome as a diagnostic on the path from the project, or on the path as given. -/
def diagnostic? (r : Rule) (c : Context) (o : Outcome) : Option Diagnostic :=
  o.message?.map fun error =>
    let path := c.relativePath?.getD ""
    ⟨r.name, error, if path.isEmpty then c.file else path⟩

/-- Runs one rule on a file. -/
def diagnose (r : Rule) (c : Context) : Run (Option Diagnostic) := do
  return r.diagnostic? c (← r.evaluate c)

/-- Runs rules on a file, one after the other. -/
def runEach (c : Context) : List Rule → Run Findings
  | [] => return {}
  | r :: rs => do
    match ← (r.diagnose c).attempt with
    | .ok diagnostic =>
      let rest ← runEach c rs
      return { rest with diagnostics := diagnostic.toList ++ rest.diagnostics }
    | .error e =>
      if e.isSkipped then
        Run.record .warning .dispatcher
          ("Rule " ++ r.name ++ " failed on " ++ c.file ++ ": " ++ e.message)
        let rest ← runEach c rs
        return { rest with errors := (r.name ++ ": " ++ c.file ++ ": " ++ e.message) :: rest.errors }
      else Run.fail e

/-- Runs rules on a file; the diagnostics are in the order of the rules' names. -/
def runAll (c : Context) (rules : List Rule) : Run Findings := do
  let f ← runEach c rules
  return { f with diagnostics := f.diagnostics.mergeSort fun a b => decide (a.rule ≤ b.rule) }

end Rule

/-- Why a rule that is called by its name gives no answer. -/
inductive InvokeError where
  | registry (e : RegistryError)
  | failure (e : Failure)

/-- Runs the rule of a name on a file, with nothing known of the project before. The answer is the
text of its diagnostic. -/
def Registry.invoke (g : Registry) (d : Volume) (name : String) (c : Context) :
    Except InvokeError (Option String) :=
  match g.get name with
  | .error e => .error (.registry e)
  | .ok r =>
    match ((r.diagnose c).exec d { resources := ⟨c.directory, c.conventions, none⟩ }).1 with
    | .error e => .error (.failure e)
    | .ok diagnostic => .ok (diagnostic.map (·.error))

/-- The diagnostics of a file. -/
def Registry.dispatch (g : Registry) (c : Context) (names : Option (List String))
    (pathOnly : Bool) : Run (List Diagnostic) := do
  return (← Rule.runAll c (g.select c.toPlace names pathOnly)).diagnostics

end ConventionLint
