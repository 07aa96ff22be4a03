import ConventionLint.Data.Json.Writer
import ConventionLint.Lint

/-! Reports as texts. -/
namespace ConventionLint

open Data

namespace Report

variable (r : Report)

/-- The time in seconds, with one place behind the point. -/
def seconds : String := tenthsText (r.elapsed.toFloat / 1000.0) ++ "s"

/-- The last line. -/
def verdict : String :=
  let effort := " (" ++ toString r.rulesEvaluated ++ " rules evaluated, " ++ r.seconds ++ ")"
  if r.diagnostics.isEmpty then "✓ No violations found" ++ effort
  else toString r.diagnostics.length ++ " violations found" ++ effort

/-- A report for people. -/
def toText : String :=
  let head := ["Rules: " ++ toString r.rulesEvaluated ++ " loaded",
    "Files: " ++ toString r.filesScanned ++ " scanned", ""]
  let body := r.diagnostics.flatMap fun d => ["✗ " ++ d.rule, "  " ++ d.file, "  " ++ d.error, ""]
  let errors := r.errors.map ("! " ++ ·) ++ (if r.errors.isEmpty then [] else [""])
  "\n".intercalate (head ++ body ++ errors ++ [r.verdict])

def object (fields : List (String × Value)) : Value := .map (fields.map fun f => (.text f.1, f.2))

def count (n : Nat) : Value := .number (.int n)

def toValue : Value :=
  object
    [("diagnostics", .list (r.diagnostics.map fun d =>
        object [("rule", .text d.rule), ("file_path", .text d.file), ("error", .text d.error)])),
     ("errors", .list (r.errors.map .text)),
     ("summary", object
        [("rules_evaluated", count r.rulesEvaluated),
         ("violations_count", count r.diagnostics.length),
         ("files_scanned", count r.filesScanned), ("elapsed_ms", .number r.elapsed)])]

def toJson : String := Json.render true r.toValue

/-- One line for each diagnostic. -/
def toLines : String :=
  "\n".intercalate (r.diagnostics.map fun d => d.rule ++ ":" ++ d.file ++ ":" ++ d.error)

end Report

end ConventionLint
