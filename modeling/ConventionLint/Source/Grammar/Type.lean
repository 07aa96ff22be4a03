import ConventionLint.Source.Grammar.Function

/-! Types. -/
namespace ConventionLint.Source.Reader

variable (g : Phrases)

def typeArguments : Reader Unit := node .typeTerm do
  lit "<"
  listed (g (.typeTerm false))
  lit ">"

/-- A modifier of a member, where a name follows it on the same line. -/
def memberModifier (w : String) : Reader Unit := do
  word w
  onward true .plain
  guard ((← aheadChar).any fun c =>
    isNameStart c || c = '[' || c = '"' || c = '\'' || c.isDigit || c = '#' || c = '*')

def accessModifier : Reader Unit :=
  oneOf (["public", "private", "protected"].map memberModifier)

/-- What follows the brackets of an index. -/
def indexAscription : Reader Unit := node .ascription do
  oneOf (["-?:", "+?:", "?:", ":"].map lit)
  g (.typeTerm true)

/-- An index signature, or the clause of a mapped type. -/
def indexSignature : Reader Unit := node .typeTerm do
  maybe do
    maybe (lit "-" <|> lit "+")
    word "readonly"
  brackets do
    name .identifier
    (do lit ":"; g (.typeTerm false)) <|> do
      word "in"
      g (.typeTerm false)
      maybe do word "as"; g (.typeTerm false)
  indexAscription g

def constructSignature : Reader Unit := node .typeTerm do
  maybe (word "abstract")
  word "new"
  maybe (typeParameters g)
  parameters g
  maybe (ascription g true)

/-- A property or a method of an object type. -/
def memberSignature : Reader Unit := node .typeTerm do
  maybe accessModifier
  maybe (memberModifier "static")
  maybe (memberModifier "override")
  maybe (memberModifier "readonly")
  let plain := (do
    propertyName (g (.expression .inner))
    maybe (lit "?"))
  (do
    maybe (memberModifier "async")
    maybe (memberModifier "get" <|> memberModifier "set" <|> lit "*")
    plain
    signature g .outer)
    <|> do
      plain
      maybe (ascription g true)

def memberType : Reader Unit := oneOf
  [constructSignature g,
   indexSignature g,
   memberSignature g,
   node .typeTerm (signature g .outer)]

def memberEnd : Reader Unit := lit "," <|> semicolon .plain

def objectType : Reader Unit := node .typeTerm do
  braces do
    maybe (lit "," <|> lit ";")
    maybe do
      memberType g
      many do memberEnd; memberType g
      maybe memberEnd

def tupleMember : Reader Unit := oneOf
  [node .typeTerm (do
    maybe (lit "...")
    name .identifier
    maybe (lit "?")
    ascription g false),
   node .typeTerm (do lit "..."; g (.typeTerm false)),
   do g (.typeTerm false); maybe (extend .typeTerm (lit "?"))]

def tupleType : Reader Unit := node .typeTerm do
  brackets (maybe (listed (tupleMember g)))

def functionType (line : Bool) : Reader Unit := node .typeTerm do
  maybe (typeParameters g)
  parameters g
  lit "=>"
  resultType g line

def constructorType (line : Bool) : Reader Unit := node .typeTerm do
  maybe (word "abstract")
  word "new"
  maybe (typeParameters g)
  parameters g
  lit "=>"
  g (.typeTerm line)

/-- What `typeof` asks about: a name, its members, and what calls of it give. -/
def queried (line : Bool) : Reader Unit := do
  (do node .expression (word "import"); arguments g) <|> name .identifier
  many do
    onward line .plain
    oneOf
      [do lit "." <|> lit "?."; memberName,
       brackets (string <|> number),
       arguments g,
       typeArguments g]

/-- A module that a type is taken from. -/
def importedType : Reader Unit := node .expression do
  word "import"
  arguments g
  many do lit "."; memberName

def namedType : Reader Unit := node .typeTerm do
  name .identifier
  many do lit "."; name .identifier
  maybe (typeArguments g)

def signedNumber : Reader Unit := node .typeTerm do
  lit "-" <|> lit "+"
  number

/-- Words of types that no name can be. -/
def typeWords : List String :=
  ["keyof", "typeof", "readonly", "infer", "unique", "new", "abstract", "import", "const"]

/-- A type to which an array or an index can be added. -/
def plainType (line : Bool) : Reader Unit := do
  match ← aheadChar with
  | some '(' => node .typeTerm (parens (g (.typeTerm false)))
  | some '{' => objectType g
  | some '[' => tupleType g
  | some '`' => template .typeTerm false (g (.typeTerm false))
  | some '"' | some '\'' => node .typeTerm string
  | some '-' | some '+' => signedNumber
  | some '*' => node .typeTerm (lit "*")
  | some '?' => node .typeTerm (do lit "?"; g (.typeTerm line))
  | some c =>
    if c.isDigit || c = '.' then node .typeTerm number
    else match ← aheadWord with
      | "const" => word "const"
      | "keyof" => node .typeTerm (do word "keyof"; g (.typeTerm line))
      | "typeof" => node .typeTerm (do word "typeof"; queried g line)
      | "unique" => node .typeTerm (do word "unique"; word "symbol")
      | w =>
        guard (!typeWords.contains w)
        namedType g
  | none => failure

/-- Arrays and indices after a type. -/
def typeTrailers (line : Bool) : Reader Unit := many do
  onward line .plain
  extend .typeTerm (brackets (maybe (g (.typeTerm false))))

def typeOperand (line : Bool) : Reader Unit := do
  let trailed : Reader Unit := do plainType g line; typeTrailers g line
  match ← aheadChar with
  | some '<' => functionType g line
  | some '(' =>
    if ['=', '>'].isPrefixOf (← beyondGroup) then functionType g line <|> trailed else trailed
  | _ => match ← aheadWord with
    | "new" => constructorType g line
    | "abstract" => constructorType g line
    | "readonly" => node .typeTerm (do word "readonly"; g (.typeTerm line))
    | "infer" => node .typeTerm do
        word "infer"
        name .identifier
        maybe do
          onward line .plain
          word "extends"
          g (.typeTerm line)
    | "import" => importedType g
    | _ => trailed

/-- A type: alternatives and intersections of operands, and a choice after them. -/
def typeTerm (line : Bool) : Reader Unit := do
  let bar := lit "|" <|> lit "&"
  (do
    guard ((← aheadChar).any fun c => c = '|' || c = '&')
    node .typeTerm (do many bar; typeOperand g line))
    <|> typeOperand g line
  many do
    onward line .plain
    extend .typeTerm (do bar; many bar; typeOperand g line)
  maybe do
    onward line .plain
    extend .typeTerm do
      word "extends"
      g (.typeTerm false)
      lit "?"
      g (.typeTerm false)
      lit ":"
      g (.typeTerm line)

end ConventionLint.Source.Reader
