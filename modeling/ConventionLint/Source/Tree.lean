/-! Concrete trees of TypeScript sources. A node keeps where it stands in the source instead of its
text, so that leaving out a comment changes no other node. -/
namespace ConventionLint.Source

/-- What a node is. Only differences that a question about a module can see are kept: every type is
a `typeTerm`, and an expression without a kind of its own is an `expression`. -/
inductive Kind where
  | token (text : String)
  | program
  | importStatement
  | importClause
  | namespaceImport
  | namedImports
  | importSpecifier
  | exportStatement
  | exportClause
  | functionDeclaration
  | functionValue
  | classDefinition
  | variableStatement
  | declarator
  | declaration
  | statement
  | parameters
  | requiredParameter
  | optionalParameter
  | pattern
  | ascription
  | typeTerm
  | identifier
  | propertyName
  | undefinedName
  | string
  | fragment
  | escape
  | literal
  | object
  | pair
  | wrapper
  | newExpression
  | callExpression
  | memberExpression
  | subscript
  | arguments
  | expression
deriving DecidableEq

/-- The part a child plays in its parent, where questions ask for it by that part. -/
inductive Role where
  | name
  | asName
  | module
  | declaration
  | value
  | parameter
  | parameters
  | returns
  | pattern
  | type
  | constructor
  | arguments
  | callee
  | target
  | key
deriving DecidableEq

/-- The characters from `start` up to, but not including, `stop`. -/
structure Span where
  start : Nat
  stop : Nat
deriving DecidableEq

/-- A comment has nothing below it and plays no part in what it stands in. -/
inductive Node where
  | comment (span : Span)
  | mk (kind : Kind) (role : Option Role) (span : Span) (children : List Node)

namespace Node

def kind? : Node → Option Kind
  | comment _ => none
  | mk k _ _ _ => some k

def role : Node → Option Role
  | comment _ => none
  | mk _ r _ _ => r

def span : Node → Span
  | comment s => s
  | mk _ _ s _ => s

def children : Node → List Node
  | comment _ => []
  | mk _ _ _ cs => cs

def withRole (r : Role) : Node → Node
  | comment s => comment s
  | mk k _ s cs => mk k (some r) s cs

/-- Tokens are the only nodes without a name of their own. -/
def isNamed (n : Node) : Bool :=
  match n.kind? with
  | some (.token _) => false
  | _ => true

def namedChildren (n : Node) : List Node :=
  n.children.filter isNamed

/-- The first child that plays the part `r`. -/
def child? (n : Node) (r : Role) : Option Node :=
  n.children.find? fun c => c.role = some r

/-- Whether the token `t` stands directly below the node. -/
def hasToken (n : Node) (t : String) : Bool :=
  n.children.any fun c => c.kind? = some (.token t)

end Node

/-- The characters of `text` that a span covers. -/
def Span.cut (s : Span) (text : List Char) : List Char :=
  (text.drop s.start).take (s.stop - s.start)

end ConventionLint.Source
