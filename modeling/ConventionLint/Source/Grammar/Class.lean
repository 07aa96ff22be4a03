import ConventionLint.Source.Grammar.Expression

/-! Classes. -/
namespace ConventionLint.Source.Reader

variable (g : Phrases)

def heritage : Reader Unit := do
  maybe do
    word "extends"
    g (.chain .inner)
    maybe (typeArguments g)
    many do
      lit ","
      g (.chain .inner)
      maybe (typeArguments g)
  maybe do
    word "implements"
    g (.typeTerm false)
    many do lit ","; g (.typeTerm false)

def fieldOrMethod : Reader Unit := node .declaration do
  many (decorator g)
  maybe (memberModifier "declare")
  maybe accessModifier
  maybe (memberModifier "declare")
  maybe (memberModifier "static")
  maybe (memberModifier "override")
  maybe (memberModifier "abstract")
  maybe (memberModifier "override")
  maybe (memberModifier "readonly")
  maybe (memberModifier "abstract")
  maybe (memberModifier "accessor")
  maybe (memberModifier "async")
  maybe (memberModifier "get" <|> memberModifier "set" <|> lit "*")
  propertyName (g (.expression .inner))
  maybe (lit "?" <|> symbol "!" ['='])
  if (← aheadChar).any fun c => c = '(' || c = '<' then
    signature g .outer
    (do g .block; maybe (semicolon .plain)) <|> semicolon .signature <|> lit ","
  else
    maybe (ascription g true)
    (do initializer g .outer; semicolon .expression <|> lit ",")
      <|> semicolon .plain <|> lit ","

def classMember : Reader Unit := oneOf
  [lit ";",
   node .declaration (do word "static"; g .block),
   do indexSignature g; semicolon .plain <|> lit ",",
   fieldOrMethod g,
   decorator g]

/-- The class from its keyword on; `named` says that it must have a name. -/
def classFrom (named : Bool) : Reader Unit := do
  word "class"
  let title := playing .name (nameExcept .identifier ["extends", "implements"])
  if named then title else maybe title
  maybe (typeParameters g)
  heritage g
  node .declaration (braces (many (classMember g)))

def classExpression : Reader Unit := node .classDefinition do
  many (decorator g)
  classFrom g false

def classDeclaration : Reader Unit := node .classDefinition do
  many (decorator g)
  (do word "abstract"; classFrom g true) <|> do
    classFrom g true
    maybe (understood .plain)

end ConventionLint.Source.Reader
