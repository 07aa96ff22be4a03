import ConventionLint.Source.Grammar.Literal

/-! Patterns, parameters and signatures. -/
namespace ConventionLint.Source.Reader

variable (g : Phrases)

def initializer (at_ : Setting) : Reader Unit := do
  symbol "=" ['=', '>']
  g (.expression at_)

/-- `: T`, where a line break may end `T` if `line` holds. -/
def ascription (line : Bool) : Reader Unit := node .ascription do
  lit ":"
  g (.typeTerm line)

def spread : Reader Unit := node .expression do
  lit "..."
  g (.expression .inner)

def arguments : Reader Unit := node .arguments do
  parens (holed (spread g <|> g (.expression .inner)))

def decorator : Reader Unit := node .expression do
  lit "@"
  (parens (g (.expression .inner))) <|> do
    name .identifier
    many do lit "."; memberName
    maybe (arguments g)

/-- A place that can be assigned to. -/
def leftHand : Reader Unit := do
  g (.chain .inner)
  guard ([.identifier, .undefinedName, .memberExpression, .subscript, .wrapper].contains (← newest))

def restPattern : Reader Unit := node .pattern do
  lit "..."
  g .pattern

def withDefault (p : Reader Unit) : Reader Unit := do
  p
  maybe (extend .pattern (initializer g .inner))

def objectPattern : Reader Unit := node .pattern do
  braces (holed (oneOf
    [restPattern g,
     node .pattern (do
      propertyName (g (.expression .inner))
      lit ":"
      withDefault g (g .pattern)),
     withDefault g (name .identifier)]))

def arrayPattern : Reader Unit := node .pattern do
  brackets (holed (withDefault g (g .pattern)))

def destructuring : Reader Unit := objectPattern g <|> arrayPattern g

/-- Names and places that a value is bound to. -/
def pattern : Reader Unit := do
  match ← aheadChar with
  | some '{' | some '[' => destructuring g <|> leftHand g
  | some '.' => restPattern g
  | _ => leftHand g

/-- A modifier, where more of the parameter follows it. -/
def parameterModifier (w : String) : Reader Unit := do
  word w
  guard ((← aheadChar).any fun c => isNameStart c || c = '{' || c = '[' || c = '.')

def parameterName : Reader Unit := do
  many (decorator g)
  maybe (oneOf (["public", "private", "protected"].map parameterModifier))
  maybe (parameterModifier "override")
  maybe (parameterModifier "readonly")
  playing .pattern (node .typeTerm (word "this") <|> g .pattern)

def parameter : Reader Unit := nodeOf do
  parameterName g
  let optional ← can (lit "?")
  maybe (lit "?")
  maybe (playing .type (ascription g false))
  maybe (initializer g .inner)
  return if optional then .optionalParameter else .requiredParameter

def parameters : Reader Unit := node .parameters do
  parens (maybe (listed (parameter g)))

def typeParameter : Reader Unit := node .typeTerm do
  maybe (do word "const"; guard ((← aheadChar).any isNameStart))
  name .identifier
  maybe do
    word "extends" <|> lit ":"
    g (.typeTerm false)
  maybe do
    symbol "=" ['=', '>']
    g (.typeTerm false)

def typeParameters : Reader Unit := node .typeTerm do
  lit "<"
  listed (typeParameter g)
  lit ">"

/-- `x is T`. -/
def predicate (line : Bool) : Reader Unit := node .typeTerm do
  name .identifier
  onward line .plain
  word "is"
  g (.typeTerm line)

def assertion (line : Bool) : Reader Unit := node .typeTerm do
  word "asserts"
  predicate g line <|> name .identifier

/-- The type of a result, which may also say what a call makes known. -/
def resultType (line : Bool) : Reader Unit := do
  if (← aheadWord) = "asserts" then assertion g line
  else predicate g line <|> g (.typeTerm line)

def result (line : Bool) : Reader Unit :=
  playing .returns (node .ascription do lit ":"; resultType g line)

/-- Type parameters, parameters and result; the result only where `at_` allows it. -/
def signature (at_ : Setting) : Reader Unit := do
  maybe (typeParameters g)
  playing .parameters (parameters g)
  if at_.result then maybe (result g at_.line)

end ConventionLint.Source.Reader
