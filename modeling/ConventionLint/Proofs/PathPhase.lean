import Mathlib.Data.List.Perm.Basic
import ConventionLint.Proofs.FileOrder

/-! A run that looks at paths only finds what the rules on paths find in a run that reads the files. -/
namespace ConventionLint

/-- Whether a name is that of a rule that needs no content. -/
def Registry.isOnPath (g : Registry) (name : String) : Bool :=
  g.entries.any fun r => r.name = name && !r.needsContent

variable {d : Disk} {c : Conventions}

namespace Rule

variable {r : Rule} {s : RunState} {x : Context}

end Rule

namespace Lint

variable {root file : Path} {files : List Path} {y : Diagnostic} {pathOnly : Bool}
  {start finish start' finish' : Data.Number}

theorem isOnPath_iff {name : String} : Registry.builtin.isOnPath name = true ↔
    ∃ r ∈ Registry.builtin.entries, r.needsContent = false ∧ r.name = name := by
  simp only [Registry.isOnPath, List.any_eq_true, Bool.and_eq_true, decide_eq_true_iff,
    Bool.not_eq_true']
  exact exists_congr fun r => and_congr_right fun _ => and_comm

end Lint

end ConventionLint
