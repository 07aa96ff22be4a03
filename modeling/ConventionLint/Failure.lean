import ConventionLint.Conventions.Basic
import ConventionLint.Database.Scan

/-! Why a check gives no answer. -/
namespace ConventionLint

/-- What checks that are added later may fail by. -/
inductive CustomKind where
  | system
  | permission
  | value
  | parse
  | internal
deriving DecidableEq

inductive Failure where
  | parse (e : ParseFailure)
  | read (e : ReadError)
  | scan (e : ScanError)
  | unknown (e : UnknownName)
  | custom (kind : CustomKind) (text : String)
deriving DecidableEq

namespace Failure

def message : Failure → String
  | parse e => e.message
  | read e => e.message
  | scan e => e.message
  | unknown e => e.message
  | custom _ text => text

/-- Whether the content of the file is no module; such a file is out of a check's reach. -/
def isParse : Failure → Bool
  | parse _ => true
  | custom kind _ => kind = .parse
  | _ => false

/-- Whether a run goes on without the check. Others end the run. -/
def isSkipped : Failure → Bool
  | parse _ => false
  | read _ => true
  | scan (.pattern .absolute) => false
  | scan _ => true
  | unknown _ => false
  | custom kind _ => kind = .system || kind = .permission || kind = .value

end Failure

end ConventionLint
