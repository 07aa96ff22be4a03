import ConventionLint.Module.TestLayout
import ConventionLint.Rule.FileName

/-! The rule on the layout of test files. -/
namespace ConventionLint.Rule

open Text

/-- What a test file should look like. -/
def describeExample : String :=
  "Example:\ndescribe(\"ModuleName\", () => \x7b\n"
    ++ "  test(\"should do something\", () => \x7b ... \x7d);\n\x7d);"

/-- The outcome for the calls outside all braces: one `describe` and no tests are asked for. -/
def judgeCalls (calls : TestLayout.Calls) : Outcome :=
  if calls.tests ≠ [] then
    .failed <| "Top-level test() calls are not allowed in test files. Found "
      ++ toString calls.tests.length ++ " top-level test() call(s). "
      ++ "All test() calls must be wrapped inside a single top-level describe() block. "
      ++ describeExample
  else if calls.describes = [] then
    .failed <| "Test files must have a single top-level describe() block. "
      ++ "No describe() block found. " ++ describeExample
  else
    .passIf (calls.describes.length = 1) <|
      "Test files must have exactly ONE top-level describe() block. Found "
        ++ toString calls.describes.length ++ " top-level describe() calls. "
        ++ "Please consolidate all tests into a single describe() block. "
        ++ "You can use nested describe() blocks inside the single top-level describe()."

def testDescribeWrapper : Rule where
  name := "general-test-describe-wrapper"
  area := generalArea
  description := "Test files wrap their tests in exactly one top-level describe()"
  targets := .test
  check c := do
    let path := c.relativePath?.getD ""
    let root := c.conventions.setting .sourceRoot
    if (after? (dropEnd '/' root.toList ++ ['/']) path.toList).isNone then
      return .skipped ("outside " ++ root ++ "/")
    else if !typedSuffixes.contains (Path.parse path).suffix then
      return .skipped "not a TypeScript test file"
    else
      let calls := TestLayout.calls c.content
      if calls.tests ≠ [] then
        Run.record .debug .generalRules ("Top-level test() calls in " ++ path ++ ": ["
          ++ ", ".intercalate (calls.tests.map quoted) ++ "]")
      return judgeCalls calls

end ConventionLint.Rule
