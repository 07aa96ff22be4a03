import ConventionLint.Lint

/-! Sessions: a project that changes between checks. -/
namespace ConventionLint

open Data

/-- The files, the current conventions, what checks share, and the rules. What checks share keeps the
conventions that it was made with. -/
structure Session where
  disk : Volume
  conventions : Conventions
  resources : Resources
  registry : Registry := .builtin
  log : List LogRecord := []

inductive Step where
  | write (parts : List String) (entry : Entry)
  | remove (parts : List String)
  | configure (value : Value)
  | renew
  | catalog
  | dispatch (file content : String) (names : Option (List String)) (pathOnly : Bool)
  | evaluate (file content : String) (names : Option (List String))
  | check (rule file content : String)
  | register (rule : Rule) (targets : String)
  | rule (name : String)
  | ruleNames
  | lint (pathOnly : Bool)

/-- Why a step has no answer. -/
inductive StepError where
  | config (e : ConfigError)
  | registry (e : RegistryError)
  | failure (e : Failure)
  | lint (e : LintError)

inductive Answer where
  | done
  | catalog (c : Catalog)
  | dispatched (rules : List Rule) (findings : Findings)
  | outcomes (results : List (Rule × Except Failure Outcome))
  | diagnosis (d : Option Diagnostic)
  | rule (r : Rule)
  | ruleNames (names : List String)
  | report (r : Report)

namespace Registry

variable (g : Registry)

/-- The rules that are named, or those for a file. -/
def named (p : Place) : Option (List String) → Except RegistryError (List Rule)
  | some names => names.mapM g.get
  | none => .ok (g.select p none false)

end Registry

/-- The outcomes of rules on a file; a failure is the outcome of its rule only. -/
def Rule.outcomes (x : Context) (rules : List Rule) :
    Run (List (Rule × Except Failure Outcome)) :=
  rules.mapM fun r => do return (r, ← (r.evaluate x).attempt)

namespace Session

/-- A new session on a project. -/
def start (d : Volume) (root : Path) (c : Conventions) : Session :=
  { disk := d, conventions := c, resources := ⟨root, c, none⟩ }

variable (s : Session)

def context (file content : String) : Context :=
  { directory := s.resources.root, file, conventions := s.conventions
    workingDirectory := s.disk.workingDirectory, links := s.disk.links, content }

/-- Runs a check and keeps what it leaves. -/
def run {α : Type} (r : Run α) (answer : α → Answer) : Except StepError Answer × Session :=
  let (result, state) := r.exec s.disk { resources := s.resources, log := s.log }
  (match result with
    | .ok a => .ok (answer a)
    | .error e => .error (.failure e),
    { s with resources := state.resources, log := state.log })

def step : Step → Except StepError Answer × Session
  | .write parts entry => (.ok .done, { s with disk := s.disk.write parts entry })
  | .remove parts => (.ok .done, { s with disk := s.disk.remove parts })
  | .configure value =>
    match Conventions.ofValue value with
    | .error e => (.error (.config e), s)
    | .ok c => (.ok .done, { s with conventions := c })
  | .renew => (.ok .done, { s with resources := ⟨s.resources.root, s.conventions, none⟩ })
  | .catalog => s.run Run.catalog .catalog
  | .dispatch file content names pathOnly =>
    let x := s.context file content
    let rules := s.registry.select x.toPlace names pathOnly
    s.run (Rule.runAll x rules) (.dispatched rules)
  | .evaluate file content names =>
    let x := s.context file content
    match s.registry.named x.toPlace names with
    | .error e => (.error (.registry e), s)
    | .ok rules => s.run (Rule.outcomes x rules) .outcomes
  | .check rule file content =>
    match s.registry.get rule with
    | .error e => (.error (.registry e), s)
    | .ok r => s.run (r.diagnose (s.context file content)) .diagnosis
  | .register rule targets =>
    match s.registry.register rule targets with
    | .error e => (.error (.registry e), s)
    | .ok g => (.ok .done, { s with registry := g })
  | .rule name =>
    match s.registry.get name with
    | .error e => (.error (.registry e), s)
    | .ok r => (.ok (.rule r), s)
  | .ruleNames => (.ok (.ruleNames (s.registry.rules.map (·.name))), s)
  | .lint pathOnly =>
    let (result, log) := ConventionLint.lint s.registry s.disk
      { root := s.resources.root, pathOnly } (.float 0.0) (.float 0.0)
    (match result with
      | .ok r => .ok (.report r)
      | .error e => .error (.lint e),
      { s with log := s.log ++ log })

/-- Takes steps one after the other. -/
def steps : Session → List Step → List (Except StepError Answer) × Session
  | s, [] => ([], s)
  | s, x :: r =>
    let (answer, s) := s.step x
    let (answers, s) := steps s r
    (answer :: answers, s)

end Session

end ConventionLint
