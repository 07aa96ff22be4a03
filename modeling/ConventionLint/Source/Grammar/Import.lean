import ConventionLint.Source.Grammar.Expression

/-! Import statements. -/
namespace ConventionLint.Source.Reader

variable (g : Phrases)

def fromClause : Reader Unit := do
  word "from"
  playing .module string

/-- A mark that limits what follows it to types; the word before `from`, `as`, a comma or an equals
sign is a name. -/
def typeMark : Reader Unit := do
  words ["type", "typeof"]
  guard (!(["from", "as"].contains (← aheadWord)))
  guard (!((← aheadChar).any fun c => c = ',' || c = '=' || c = '}'))

def specifierName : Reader Unit := do
  (do
    playing .name (name .identifier)
    maybe do word "as"; playing .asName (name .identifier))
    <|> do
      playing .name string
      word "as"
      playing .asName (name .identifier)

def importSpecifier : Reader Unit := node .importSpecifier do
  (do typeMark; specifierName) <|> specifierName

def namedImports : Reader Unit := node .namedImports do
  braces (maybe (listed importSpecifier))

def namespaceImport : Reader Unit := node .namespaceImport do
  lit "*"
  word "as"
  name .identifier

def importClause : Reader Unit := node .importClause do
  oneOf
    [namespaceImport,
     namedImports,
     do
      name .identifier
      maybe do lit ","; namespaceImport <|> namedImports]

def requireClause : Reader Unit := node .declaration do
  name .identifier
  lit "="
  word "require"
  parens string

def importBody : Reader Unit := oneOf
  [do importClause; fromClause,
   requireClause,
   playing .module string]

def importAttributes : Reader Unit := do
  onward true .plain
  words ["with", "assert"]
  object g

def importStatement : Reader Unit := node .importStatement do
  word "import"
  (do typeMark; importBody) <|> importBody
  maybe (importAttributes g)
  semicolon .plain

/-- Names with dots between them. -/
def dottedName : Reader Unit := do
  name .identifier
  many do lit "."; name .identifier

def importAlias : Reader Unit := node .declaration do
  word "import"
  name .identifier
  lit "="
  dottedName
  semicolon .plain

end ConventionLint.Source.Reader
