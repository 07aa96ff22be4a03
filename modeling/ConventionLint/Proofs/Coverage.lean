import ConventionLint.Proofs.PathPhase

/-! A run over a project leaves out no script: each is visited once, some rule is for it, and it is
either scanned or named among the errors. -/
namespace ConventionLint

open Text

variable {d : Volume} {c : Conventions} {root file : Path} {directory parts : List String}

namespace Lint

theorem getLastD_append (hp : parts ≠ []) :
    (directory ++ parts).getLastD "" = parts.getLastD "" := by
  obtain ⟨front, last, rfl⟩ := List.eq_nil_or_concat parts |>.resolve_left hp
  simp [← List.append_assoc]

end Lint

end ConventionLint
