import ConventionLint.Command.Transcript
import ConventionLint.Proofs.Isolation
import ConventionLint.Proofs.PathPhase

/-! Files that are checked one by one give what a run over them gives: the same diagnostics, and an
exit code that tells whether there are any. -/
namespace ConventionLint

variable {d : Volume} {c : Conventions} {root : Path}

namespace Run

variable {α β : Type}

/-- A run that leaves the project and its conventions as they are. -/
def Stays (r : Run α) (d : Volume) : Prop :=
  ∀ s, (r.exec d s).2.resources.root = s.resources.root ∧
    (r.exec d s).2.resources.conventions = s.resources.conventions

theorem Plain.stays {r : Run α} (h : r.Plain) : r.Stays d := by
  obtain ⟨a, log, he, -⟩ := h
  intro s
  rw [he]
  exact ⟨rfl, rfl⟩

end Run

open Run

namespace Registry

variable {s : Resources} {x : Context}

end Registry

namespace Command

variable {g : Registry} {s : Resources} {names : Option (List String)} {pathsOnly : Bool}
  {file : Path} {files : List Path} {t : Target} {text : String}

def Line.isOut : Line → Bool
  | .out _ => true
  | _ => false

/-- The diagnostics that are found on a file, as far as they are of some names. -/
def foundOn (root : Path) (c : Conventions) (names : Option (List String)) (pathsOnly : Bool)
    (d : Volume) (file : Path) : List Diagnostic :=
  (Lint.findingsOn .builtin root c pathsOnly d (d.absolute file)).diagnostics.filter
    fun y => names.all (·.contains y.rule)

/-- What is printed of files that are checked one by one, and whether all of them can be read. -/
structure Checked.Reports (d : Volume) (root : Path) (c : Conventions)
    (names : Option (List String)) (pathsOnly : Bool) (files : List Path) (k : Checked) : Prop where
  unbroken : k.broken = none
  lines : k.lines.filter Line.isOut =
    (files.flatMap (foundOn root c names pathsOnly d)).map diagnosticLine
  found : k.found = (files.flatMap (foundOn root c names pathsOnly d)).length
  unreadable : 0 < k.unreadable ↔
    ∃ file ∈ files, ∃ e, Lint.content pathsOnly d (d.absolute file) = .error e

theorem Checked.Reports.code {k : Checked} (h : k.Reports d root c none pathsOnly files) :
    (k.code = 1 ↔ files.flatMap (foundOn root c none pathsOnly d) ≠ []) ∧
    (k.code = 2 ↔ files.flatMap (foundOn root c none pathsOnly d) = [] ∧
      ∃ file ∈ files, ∃ e, Lint.content pathsOnly d (d.absolute file) = .error e) ∧
    (k.code = 0 ↔ files.flatMap (foundOn root c none pathsOnly d) = [] ∧
      ¬ ∃ file ∈ files, ∃ e, Lint.content pathsOnly d (d.absolute file) = .error e) := by
  have hf : 0 < k.found ↔ files.flatMap (foundOn root c none pathsOnly d) ≠ [] := by
    rw [h.found, List.length_pos_iff]
  rw [← h.unreadable, ← hf]
  have hz : files.flatMap (foundOn root c none pathsOnly d) = [] ↔ ¬ 0 < k.found := by
    rw [hf, not_not]
  rw [hz]
  unfold Checked.code
  rw [h.unbroken]
  by_cases h1 : 0 < k.found <;> by_cases h2 : 0 < k.unreadable <;> simp [h1, h2]

end Command

end ConventionLint
