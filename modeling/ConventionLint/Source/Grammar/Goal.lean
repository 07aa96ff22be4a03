import ConventionLint.Source.LineEnd
import ConventionLint.Source.Lookahead

/-! The phrases that contain each other. A rule of the grammar takes a reader for every phrase and
reads one level itself; `Grammar` ties the levels together. -/
namespace ConventionLint.Source

/-- How an expression stands in its surroundings: whether a line break may end it, and whether a
colon after a parameter list may start a result type. -/
structure Setting where
  line : Bool
  result : Bool

/-- An expression inside brackets of any kind. -/
def Setting.inner : Setting := ⟨false, true⟩

/-- An expression that ends a statement. -/
def Setting.outer : Setting := ⟨true, true⟩

inductive Goal where
  | statement
  | block
  | expression (at_ : Setting)
  | operand (at_ : Setting)
  | chain (at_ : Setting)
  | construction
  | typeTerm (line : Bool)
  | pattern
  | element

abbrev Phrases := Goal → Reader Unit

namespace Follow

/-- After an expression. -/
def expression : Follow := ⟨true, false⟩

/-- After a type, a name or a keyword. -/
def plain : Follow := ⟨false, false⟩

/-- After a signature that a body could follow. -/
def signature : Follow := ⟨false, true⟩

end Follow

/-- The two dialects: with angle-bracket casts, or with markup elements in their place. -/
inductive Dialect where
  | plain
  | markup
deriving DecidableEq

namespace Reader

/-- Words that start an expression other than a name. -/
def operandWords : List String :=
  ["function", "class", "typeof", "void", "delete", "await", "yield", "import", "this", "super",
    "true", "false", "null", "undefined", "using"]

/-- Words that an operator made of letters takes away from a name before it. -/
def operatorWords : List String := ["in", "instanceof", "as", "satisfies"]

/-- A member name after a dot. -/
def memberName : Reader Unit := do
  match ← ahead with
  | '#' :: cs =>
    guard (nameLength cs ≠ 0)
    gaps
    run .expression (nameLength cs + 1)
  | _ => name .propertyName

end Reader

end ConventionLint.Source
