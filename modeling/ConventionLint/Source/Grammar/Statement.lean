import ConventionLint.Source.Grammar.Class
import ConventionLint.Source.Grammar.Import

/-! Declarations, exports and statements. -/
namespace ConventionLint.Source.Reader

variable (g : Phrases)

def block : Reader Unit := node .statement do
  braces (many (g .statement))
  maybe (understood .plain)

/-- The newest node's value, if it has one, can go on with an operator. -/
def valueFollow : Reader Follow := fun s =>
  s.found.head?.map fun n =>
    (if (n.child? .value).isSome then Follow.expression else .plain, s)

def bound (reserved : List String) : Reader Unit :=
  playing .name (destructuring g <|> nameExcept .identifier reserved)

def declarator (reserved : List String) : Reader Unit := node .declarator do
  bound g reserved
  maybe (do symbol "!" ['=']; guard ((← aheadChar) = some ':'))
  maybe (playing .type (ascription g true))
  maybe (playing .value (initializer g .outer))

def declarators (reserved : List String) : Reader Unit := do
  declarator g reserved
  many do lit ","; declarator g []
  semicolon (← valueFollow)

def variableStatement : Reader Unit := node .variableStatement do
  oneOf
    [do word "let"; onward true .expression; declarators g operatorWords,
     do word "const"; declarators g ["enum"],
     do word "var"; declarators g []]

/-- A function with its body, or the signature of one. -/
def functionDeclaration : Reader Unit := nodeOf do
  maybe do word "async"; onward true .expression
  word "function"
  let generator ← can (lit "*")
  maybe (lit "*")
  playing .name (name .identifier)
  signature g .outer
  (do g .block; return .functionDeclaration) <|> do
    guard (!generator)
    semicolon .signature
    return .declaration

def interfaceDeclaration : Reader Unit := node .declaration do
  word "interface"
  playing .name (name .identifier)
  maybe (typeParameters g)
  maybe do
    word "extends"
    namedType g
    many do lit ","; namedType g
  objectType g

def enumMember : Reader Unit := do
  propertyName (g (.expression .inner))
  maybe (initializer g .inner)

def enumDeclaration : Reader Unit := node .declaration do
  maybe (word "const")
  word "enum"
  playing .name (name .identifier)
  braces (maybe (listed (enumMember g)))

def aliasDeclaration : Reader Unit := node .declaration do
  word "type"
  onward true .expression
  playing .name (nameExcept .identifier operatorWords)
  maybe (typeParameters g)
  lit "="
  g (.typeTerm true)
  semicolon .plain

def namespaceDeclaration : Reader Unit := node .declaration do
  words ["namespace", "module"]
  onward true .expression
  string <|> do
    guard (!operatorWords.contains (← aheadWord))
    dottedName
  maybe (g .block)

/-- Declarations whose first word is given; `ambient` reads what may follow `declare`. -/
def declarationAt (ambient : Reader Unit) : Reader Unit := do
  if (← aheadChar) = some '@' then classDeclaration g
  else match ← aheadWord with
    | "function" => functionDeclaration g
    | "async" => functionDeclaration g
    | "class" => classDeclaration g
    | "abstract" => classDeclaration g
    | "let" => variableStatement g
    | "var" => variableStatement g
    | "const" => enumDeclaration g <|> variableStatement g
    | "enum" => enumDeclaration g
    | "interface" => interfaceDeclaration g
    | "type" => aliasDeclaration g
    | "namespace" => namespaceDeclaration g
    | "module" => namespaceDeclaration g
    | "import" => importAlias
    | "declare" => ambient
    | _ => failure

def ambientDeclaration : Reader Unit := node .declaration do
  word "declare"
  onward true .expression
  oneOf
    [do word "global"; g .block,
     do
      word "module"
      lit "."
      memberName
      lit ":"
      g (.typeTerm true)
      semicolon .plain,
     declarationAt g failure]

def declaration : Reader Unit := declarationAt g (ambientDeclaration g)

def exportedName : Reader Unit := name .identifier <|> string

def exportSpecifier : Reader Unit := node .exportClause do
  maybe typeMark
  exportedName
  maybe do word "as"; exportedName

def exportClause : Reader Unit := node .exportClause do
  braces (maybe (listed exportSpecifier))

def exportDefault : Reader Unit := do
  word "default"
  playing .declaration (declaration g) <|> do
    playing .value (g (.expression .outer))
    semicolon .expression

def exportStatement : Reader Unit := node .exportStatement do
  many (decorator g)
  word "export"
  oneOf
    [exportDefault g,
     playing .declaration (declaration g),
     do
      maybe (do word "type"; guard ((← aheadChar) = some '{'))
      exportClause
      maybe fromClause
      semicolon .plain,
     do
      lit "*"
      maybe (node .exportClause do word "as"; exportedName)
      fromClause
      semicolon .plain,
     do
      symbol "=" ['=', '>']
      g (.expression .outer)
      semicolon .expression,
     do
      word "as"
      word "namespace"
      name .identifier
      semicolon .plain]

def expressionStatement : Reader Unit := node .statement do
  expressions g .outer
  semicolon .expression

def ifStatement : Reader Unit := node .statement do
  word "if"
  parenthesized g
  g .statement
  maybe do word "else"; g .statement

/-- The head of a loop over the members or the elements of a value. -/
def loopHead : Reader Unit := do
  oneOf
    [do word "var"; bound g []; maybe (initializer g .inner),
     do words ["let", "const"]; bound g [],
     g .pattern]
  words ["in", "of"]
  expressions g .inner

/-- The head of a loop with a start, a condition and a step. -/
def countingHead : Reader Unit := do
  oneOf
    [lit ";",
     variableStatement g,
     do expressions g .inner; lit ";"]
  lit ";" <|> (do expressions g .inner; lit ";")
  maybe (expressions g .inner)

def forStatement : Reader Unit := node .statement do
  word "for"
  maybe (word "await")
  parens (loopHead g) <|> parens (countingHead g)
  g .statement

def switchCase : Reader Unit := node .statement do
  (do word "case"; expressions g ⟨false, false⟩) <|> word "default"
  lit ":"
  many do
    guard (!(["case", "default"].contains (← aheadWord)))
    g .statement

def switchStatement : Reader Unit := node .statement do
  word "switch"
  parenthesized g
  braces (many (switchCase g))

def tryStatement : Reader Unit := node .statement do
  word "try"
  g .block
  maybe do
    word "catch"
    maybe (parens do bound g []; maybe (ascription g false))
    g .block
  maybe do word "finally"; g .block

def doStatement : Reader Unit := node .statement do
  word "do"
  g .statement
  word "while"
  parenthesized g
  maybe (semicolon .plain)

def jumpStatement : Reader Unit := node .statement do
  words ["break", "continue", "debugger"]
  maybe do onward true .plain; name .identifier
  semicolon .plain

def returnStatement : Reader Unit := node .statement do
  word "return"
  (do
    onward true .plain
    expressions g .outer
    semicolon .expression)
    <|> semicolon .plain

def throwStatement : Reader Unit := node .statement do
  word "throw"
  expressions g .outer
  semicolon .expression

/-- `while (x) s` and `with (x) s`. -/
def guardedStatement (w : String) : Reader Unit := node .statement do
  word w
  parenthesized g
  g .statement

def labelled : Reader Unit := node .statement do
  name .identifier
  lit ":"
  g .statement

def statement : Reader Unit := do
  match ← aheadChar with
  | none => failure
  | some ';' => node .statement (lit ";")
  | some '{' => g .block <|> expressionStatement g
  | some '@' => exportStatement g <|> declaration g <|> expressionStatement g
  | some _ => match ← aheadWord with
    | "import" => importStatement g <|> importAlias <|> expressionStatement g
    | "export" => exportStatement g <|> expressionStatement g
    | "if" => ifStatement g
    | "switch" => switchStatement g
    | "for" => forStatement g
    | "while" => guardedStatement g "while"
    | "with" => guardedStatement g "with"
    | "do" => doStatement g
    | "try" => tryStatement g
    | "break" => jumpStatement
    | "continue" => jumpStatement
    | "debugger" => jumpStatement
    | "return" => returnStatement g
    | "throw" => throwStatement g
    | "var" => declaration g
    | "const" => declaration g
    | "enum" => declaration g
    | "interface" => declaration g
    | "abstract" => declaration g
    | "" => expressionStatement g
    | _ => declaration g <|> labelled g <|> expressionStatement g

/-- A line that names the program to run the file with. -/
def interpreterLine : Reader Unit := node .statement do
  lit "#!"
  maybe do run .fragment ((← here).takeWhile (· ≠ '\n')).length

/-- A line with a comment of a markup page, where a statement could start. -/
def pageComment : Reader Unit := do
  let cs ← ahead
  guard (["<!--", "-->"].any fun t => t.toList.isPrefixOf cs)
  gaps
  comment ((← here).takeWhile fun c => c ≠ '\n' && c ≠ '\u2028' && c ≠ '\u2029').length

def program : Reader Unit := node .program do
  maybe interpreterLine
  many (pageComment <|> g .statement)
  gaps
  guard ((← here).isEmpty)

end ConventionLint.Source.Reader
