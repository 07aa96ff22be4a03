import ConventionLint.Source.Grammar.Goal

/-! Literals. A string holds its plain fragments and its escapes as children. -/
namespace ConventionLint.Source.Reader

def fragmentUntil (stop : Char → Bool) : Reader Unit := do
  run .fragment ((← here).takeWhile fun c => !stop c).length

def escape : Reader Unit := do
  run .escape (escapeLength (← here))

def stringWith (quote : Char) (mark : String) : Reader Unit := node .string do
  lit mark
  many (fragmentUntil (fun c => c = quote || c = '\\' || c = '\r' || c = '\n') <|> escape)
  lit mark

def string : Reader Unit := stringWith '"' "\"" <|> stringWith '\'' "'"

def number : Reader Unit := do
  gaps
  run .literal (numberLength (← here))

def regex : Reader Unit := node .literal do
  lit "/"
  run .fragment (regexLength (← here))
  litHere "/"
  maybe do run .fragment ((← here).takeWhile fun c => 'a' ≤ c && c ≤ 'z').length

/-- A template whose substitutions are read by `inside`; `escapes` says whether it may hold any. -/
def template (k : Kind) (escapes : Bool) (inside : Reader Unit) : Reader Unit := node k do
  lit "`"
  many do
    (do run .fragment (templateLength (← here)))
      <|> (do guard escapes; escape)
      <|> node .expression (do litHere "$\x7b"; inside; lit "\x7d")
  litHere "`"

/-- The name of a property: a word, a string, a number or an expression in brackets. -/
def propertyName (expression : Reader Unit) : Reader Unit := do
  match ← aheadChar with
  | some '"' | some '\'' => string
  | some '[' => node .expression (brackets expression)
  | some c => if c.isDigit || c = '.' then number else memberName
  | none => failure

end ConventionLint.Source.Reader
