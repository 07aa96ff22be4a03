import ConventionLint.Failure

/-! Runs: checks on a fixed disk that share what is known of a project and keep a log. -/
namespace ConventionLint

/-- What the checks of one run share. The catalog is there once it is asked for; it belongs to the
conventions given here. -/
structure Resources where
  root : Path
  conventions : Conventions
  catalog : Option Catalog := none

structure RunState where
  resources : Resources
  log : List LogRecord := []

/-- A failure leaves the state that was reached. -/
abbrev Run := ReaderT Volume (ExceptT Failure (StateM RunState))

namespace Run

/-- Runs on a disk, from a state. -/
def exec {α : Type} (r : Run α) (d : Volume) (s : RunState) : Except Failure α × RunState :=
  (r d).run s

def record (level : Level) (source : LogSource) (text : String) : Run Unit :=
  modify fun s => { s with log := s.log ++ [⟨level, source, text⟩] }

def fail {α : Type} (e : Failure) : Run α := throw e

def ofExcept {ε α : Type} (failure : ε → Failure) : Except ε α → Run α
  | .ok a => return a
  | .error e => fail (failure e)

/-- The catalog of the project. It is made from the disk as it is when first asked for, and kept if
that succeeds. -/
def catalog : Run Catalog := do
  let s ← get
  match s.resources.catalog with
  | some c => return c
  | none =>
    let (result, log) := findDatabases (← read) s.resources.root s.resources.conventions
    match result with
    | .ok c =>
      set { s with resources := { s.resources with catalog := some c }, log := s.log ++ log }
      return c
    | .error e =>
      set { s with log := s.log ++ log }
      fail (.scan e)

/-- Runs and gives a failure as a result. -/
def attempt {α : Type} (r : Run α) : Run (Except Failure α) :=
  tryCatch (do return .ok (← r)) fun e => return .error e

end Run

end ConventionLint
