/-! Records of what happens in a run. -/
namespace ConventionLint

inductive Level where
  | debug
  | warning
deriving DecidableEq

def Level.name : Level → String
  | debug => "DEBUG"
  | warning => "WARNING"

/-- The part of the program that makes a record. -/
inductive LogSource where
  | databases
  | functionRules
  | generalRules
  | dispatcher
  | linter
deriving DecidableEq

def LogSource.name : LogSource → String
  | databases => "bakelint.resolvers.db_names"
  | functionRules => "bakelint.rules.function"
  | generalRules => "bakelint.rules.general"
  | dispatcher => "bakelint.rules.registry"
  | linter => "bakelint.linter"

structure LogRecord where
  level : Level
  source : LogSource
  text : String
deriving DecidableEq

/-- The whole record on one line. -/
def LogRecord.line (r : LogRecord) : String :=
  r.level.name ++ " " ++ r.source.name ++ ": " ++ r.text

end ConventionLint
