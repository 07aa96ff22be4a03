import ConventionLint.Source.Grammar.Markup

/-! Expressions. A chain is a primary expression with the members, indices, calls and marks after
it; an operand is a chain with its unary operators, an assignment, or a function; operators join
operands. -/
namespace ConventionLint.Source

/-- All tokens made of operator characters, longer ones first. -/
def operators : List String :=
  [">>>=", "===", "!==", ">>>", "**=", "<<=", ">>=", "&&=", "||=", "??=", "=>", "==", "!=", "<=",
    ">=", "&&", "||", "??", "**", "<<", ">>", "++", "--", "+=", "-=", "*=", "/=", "%=", "&=", "|=",
    "^=", "?.", "+", "-", "*", "/", "%", "&", "|", "^", "<", ">", "=", "!", "~", "?"]

def binaryOperators : List String :=
  ["===", "!==", ">>>", "==", "!=", "<=", ">=", "&&", "||", "??", "**", "<<", ">>", "+", "-", "*",
    "/", "%", "&", "|", "^", "<", ">"]

def assignmentOperators : List String :=
  [">>>=", "**=", "<<=", ">>=", "&&=", "||=", "??=", "+=", "-=", "*=", "/=", "%=", "&=", "|=", "^=",
    "="]

/-- The longest operator at the front of a text. -/
def operatorAt (cs : List Char) : Option String :=
  operators.find? fun t => t.toList.isPrefixOf cs

/-- Whether a name or a literal starts here. -/
def startsAtom (cs : List Char) : Bool :=
  nameLength cs ≠ 0 && !Reader.operatorWords.contains (String.ofList (cs.take (nameLength cs)))
    || cs.head?.any fun c => c.isDigit || c = '"' || c = '\'' || c = '{' || c = '@' || c = '#'

/-- Whether these characters can start an operand, so that a closing angle bracket before them was
an operator. -/
def startsOperand (cs : List Char) : Bool :=
  startsAtom cs ||
    match operatorAt cs with
    | some "=" | some "~" | some "++" | some "--" => true
    | some "!" => startsAtom (cs.drop 1) || ["!".toList, "(".toList].any (·.isPrefixOf (cs.drop 1))
    | _ => false

namespace Reader

variable (g : Phrases)

/-- One of `ts`, read as the longest operator that starts here. -/
def operator (ts : List String) : Reader Unit := do
  match operatorAt (← ahead) with
  | none => failure
  | some t => do guard (ts.contains t); lit t

/-- Expressions with commas between them. -/
def expressions (at_ : Setting) : Reader Unit := do
  g (.expression at_)
  maybe (extend .expression do
    lit ","
    g (.expression at_)
    many do lit ","; g (.expression at_))

def parenthesized : Reader Unit := node .wrapper do
  parens do
    expressions g .inner
    maybe (ascription g false)

def array : Reader Unit := node .expression do
  brackets (holed (spread g <|> g (.expression .inner)))

/-- A modifier of a method, where its name follows. -/
def methodModifier (w : String) : Reader Unit := do
  word w
  guard ((← aheadChar).any fun c =>
    isNameStart c || c = '[' || c = '"' || c = '\'' || c.isDigit || c = '#' || c = '*')

def method : Reader Unit := node .expression do
  maybe (oneOf (["public", "private", "protected"].map methodModifier))
  maybe (methodModifier "static")
  maybe (methodModifier "override")
  maybe (methodModifier "readonly")
  maybe (methodModifier "async")
  maybe (methodModifier "get" <|> methodModifier "set" <|> lit "*")
  propertyName (g (.expression .inner))
  maybe (lit "?")
  signature g .inner
  g .block

def pair : Reader Unit := node .pair do
  playing .key (propertyName (g (.expression .inner)))
  lit ":"
  playing .value (g (.expression .inner))

def object : Reader Unit := node .object do
  braces (holed (oneOf [spread g, pair g, method g, name .identifier]))

def functionExpression : Reader Unit := node .functionValue do
  maybe (word "async")
  word "function"
  maybe (lit "*")
  maybe (playing .name (name .identifier))
  signature g .inner
  g .block

/-- An arrow and what the function gives or does. -/
def arrowBody (at_ : Setting) : Reader Unit := do
  lit "=>"
  (do guard ((← aheadChar) = some '{'); g .block) <|> g (.expression at_)

/-- The parameter of an arrow function without parentheses. -/
def loneParameter : Reader Unit := do
  playing .parameter (nameExcept .identifier operandWords)
  guard (['=', '>'].isPrefixOf (← ahead))

def loneArrow (at_ : Setting) : Reader Unit := node .functionValue do
  loneParameter
  arrowBody g at_

def listArrow (at_ : Setting) : Reader Unit := node .functionValue do
  signature g at_
  arrowBody g at_

/-- Whether the parentheses that come next can hold the parameters of an arrow function. -/
def parametersAhead (at_ : Setting) : Reader Bool := do
  match ← beyondGroup with
  | '=' :: '>' :: _ => return true
  | ':' :: _ => return at_.result
  | _ => return false

/-- A function that starts with `async`; in a statement of its own the word stays on one line with
what it belongs to. -/
def asyncFunction (at_ : Setting) : Reader Unit := node .functionValue do
  word "async"
  onward at_.line .expression
  oneOf
    [do
      guard ((← aheadWord) = "function")
      word "function"
      maybe (lit "*")
      maybe (playing .name (name .identifier))
      signature g .inner
      g .block,
     do loneParameter; arrowBody g at_,
     do
      guard ((← aheadChar) = some '<' || (← parametersAhead at_))
      signature g at_
      arrowBody g at_]

def importExpression : Reader Unit := do
  node .expression (word "import")
  guard ((← aheadChar).any fun c => c = '(' || c = '.')

/-- Expressions that operators of all kinds can follow. The class reader is given. -/
def primary (classExpression : Reader Unit) (at_ : Setting) : Reader Unit := do
  match ← aheadChar with
  | none => failure
  | some '(' =>
    if ← parametersAhead at_ then listArrow g at_ <|> parenthesized g else parenthesized g
  | some '[' => array g
  | some '{' => object g
  | some '"' | some '\'' => string
  | some '`' => template .literal true (expressions g .inner)
  | some '/' => regex
  | some '@' => classExpression
  | some c =>
    if c.isDigit || c = '.' then number
    else match ← aheadWord with
      | "function" => functionExpression g
      | "async" => asyncFunction g at_ <|> loneArrow g at_ <|> name .identifier
      | "class" => classExpression
      | "import" => importExpression
      | "undefined" => name .undefinedName
      | "this" => name .expression
      | "super" => name .expression
      | "true" => name .literal
      | "false" => name .literal
      | "null" => name .literal
      | _ => loneArrow g at_ <|> nameExcept .identifier operandWords

def templateCall : Reader Unit := extend .callExpression do
  guard ((← aheadChar) = some '`')
  mark .callee
  playing .arguments (template .literal true (expressions g .inner))

def memberAccess : Reader Unit := extend .memberExpression do
  mark .target
  symbol "." ['.']
  memberName

def indexAccess : Reader Unit := extend .subscript (brackets (expressions g .inner))

def nonNull : Reader Unit := extend .wrapper do
  guard (operatorAt (← ahead) = some "!")
  lit "!"

/-- What may follow `?.`. -/
def optionalAccess : Reader Unit := extendOf do
  guard (operatorAt (← ahead) = some "?.")
  (do
    mark .target
    lit "?."
    memberName
    return .memberExpression)
    <|> (do
      lit "?."
      brackets (expressions g .inner)
      return .subscript)
    <|> do
      mark .callee
      lit "?."
      guard (!((← here).head?.any Char.isDigit))
      maybe (typeArguments g)
      playing .arguments (arguments g)
      return .callExpression

/-- Whether an angle bracket compares with a name or a literal, since an operator follows that no
type goes on with. -/
def compares : Reader Bool := can do
  lit "<"
  (do maybe (lit "-" <|> lit "+"); number) <|> string <|> name .identifier
  operator (operators.filter fun t => !([">", "<", "&", "|"].contains t))

/-- Type arguments after an expression. -/
def appliedTypes : Reader Unit := do
  guard (!(← compares))
  typeArguments g

/-- Type arguments, and the call they belong to if there is one. -/
def typedCall : Reader Unit := extendOf do
  mark .callee
  appliedTypes g
  (do playing .arguments (arguments g); return .callExpression)
    <|> (do
      guard ((← aheadChar) = some '`')
      playing .arguments (template .literal true (expressions g .inner))
      return .callExpression)
    <|> do
      guard (!startsOperand (← ahead))
      return .expression

def call : Reader Unit := extend .callExpression do
  mark .callee
  playing .arguments (arguments g)

def trailers (at_ : Setting) : Reader Unit := many do
  onward at_.line .expression
  oneOf [memberAccess, optionalAccess g, indexAccess g, call g, templateCall g, nonNull,
    typedCall g]

/-- The class a construction names: a primary expression without calls. Another construction counts
only once a member, an index or a call is applied to it. -/
def constructed (classExpression : Reader Unit) : Reader Unit := do
  let plain := oneOf [memberAccess, indexAccess g, nonNull, templateCall g]
  (do
    guard ((← aheadWord) = "new")
    g .construction
    plain <|> call g)
    <|> primary g classExpression .inner
  many plain

def construction (classExpression : Reader Unit) : Reader Unit := node .newExpression do
  word "new"
  playing .constructor (constructed g classExpression)
  maybe do
    appliedTypes g
    guard (!startsOperand (← ahead))
  maybe (playing .arguments (arguments g))

def metaProperty : Reader Unit := node .expression do
  word "new"
  lit "."
  word "target"

/-- A cast in angle brackets, a generic arrow function, or a markup element. -/
def angled (d : Dialect) (at_ : Setting) : Reader Unit := do
  listArrow g at_ <|>
    match d with
    | .plain => node .expression do
        typeArguments g
        g (.operand at_)
    | .markup => g .element

/-- A chain: a construction or a primary expression, and what is applied to it. -/
def chain (d : Dialect) (classExpression : Reader Unit) (at_ : Setting) : Reader Unit := do
  oneOf
    [do guard ((← aheadWord) = "new"); oneOf [metaProperty, g .construction, name .identifier],
     do guard ((← aheadChar) = some '<' && d = .markup); g .element,
     primary g classExpression at_]
  trailers g at_

def update (at_ : Setting) : Reader Unit := do
  onward at_.line .expression
  extend .expression (operator ["++", "--"])

def assignable : Reader Unit := do
  guard ([.identifier, .undefinedName, .memberExpression, .subscript, .wrapper].contains (← newest))

def assignment (at_ : Setting) : Reader Unit := do
  assignable
  extend .expression do
    operator assignmentOperators
    g (.expression at_)

/-- An assignment to a pattern, where an equals sign follows the closing bracket. -/
def patternAssignment (at_ : Setting) : Reader Unit := node .expression do
  guard (operatorAt (← beyondGroup) = some "=")
  g .pattern
  operator ["="]
  g (.expression at_)

def unary (at_ : Setting) : Reader Unit := node .expression do
  oneOf [operator ["!", "~", "+", "-", "++", "--"], words ["typeof", "void", "delete"]]
  g (.operand at_)

/-- `as T` or `satisfies T` after an expression. -/
def cast (at_ : Setting) : Reader Unit := extend .wrapper do
  (do word "as"; word "const" <|> g (.typeTerm at_.line))
    <|> do word "satisfies"; g (.typeTerm at_.line)

def awaited (at_ : Setting) : Reader Unit := node .expression do
  word "await"
  g (.operand at_)
  many do onward at_.line .expression; cast g at_

def yielded (at_ : Setting) : Reader Unit := node .expression do
  word "yield"
  (do lit "*"; g (.expression at_)) <|> maybe do
    onward at_.line .plain
    g (.expression at_)

def usingAssignment (at_ : Setting) : Reader Unit := node .expression do
  word "using"
  g .pattern
  operator ["="]
  g (.expression at_)

/-- A private name before `in`. -/
def privateName : Reader Unit := do
  memberName
  guard ((← aheadWord) = "in")

def operand (d : Dialect) (at_ : Setting) : Reader Unit := do
  let plain : Reader Unit := do
    g (.chain at_)
    (assignment g at_) <|> maybe (update at_)
  match ← aheadChar with
  | none => failure
  | some '<' => angled g d at_ <|> plain
  | some '#' => privateName
  | some '[' => patternAssignment g at_ <|> plain
  | some '{' => patternAssignment g at_ <|> plain
  | some c =>
    if c = '!' || c = '~' || c = '+' || c = '-' then unary g at_
    else match ← aheadWord with
      | "typeof" => unary g at_
      | "void" => unary g at_
      | "delete" => unary g at_
      | "await" => awaited g at_
      | "yield" => yielded g at_
      | "using" => usingAssignment g at_
      | _ => plain

/-- The question mark of a choice, which no dot, second mark or end of a parameter follows. -/
def choiceMark : Reader Unit := do
  lit "?"
  match ← here with
  | '?' :: _ => failure
  | '.' :: r => guard (r.head?.any Char.isDigit)
  | r => guard (!((r.dropWhile isLineGap).head?.any fun c => c = ':' || c = ')' || c = ','))

def choice (at_ : Setting) : Reader Unit := extend .expression do
  choiceMark
  (do g (.expression .inner); lit ":") <|> (do g (.expression ⟨false, false⟩); lit ":")
  g (.expression at_)

def binary (at_ : Setting) : Reader Unit := extend .expression do
  operator binaryOperators <|> words ["in", "instanceof"]
  g (.operand at_)

/-- An expression without commas. -/
def expression (at_ : Setting) : Reader Unit := do
  g (.operand at_)
  many do
    onward at_.line .expression
    binary g at_ <|> cast g at_
  maybe do
    onward at_.line .expression
    choice g at_

end Reader

end ConventionLint.Source
