import ConventionLint.Module.Basic

/-! What a module exports. -/
namespace ConventionLint

open Source

structure Parameter where
  name : String
  /-- The type as written, `any` if there is none. -/
  typeText : String
  optional : Bool
deriving DecidableEq

structure FunctionShape where
  parameters : List Parameter
  returnType : Option String
  isAsync : Bool := false
  name : Option String := none
deriving DecidableEq

/-- Parameters and return type on one line; an empty return type counts as none. -/
def FunctionShape.signature (f : FunctionShape) : String :=
  let parameters := ", ".intercalate (f.parameters.map fun p => p.name ++ ": " ++ p.typeText)
  let returns := match f.returnType with
    | none | some "" => ""
    | some t => ": " ++ t
  "(" ++ parameters ++ ")" ++ returns

/-- What a default export that is no function is. -/
inductive ValueClass where
  | objectLiteral
  | classDefinition
  | literal
  | identifier
  | expression
deriving DecidableEq

def ValueClass.label : ValueClass → String
  | objectLiteral => "object-literal"
  | classDefinition => "class"
  | literal => "literal"
  | identifier => "identifier-to-non-function"
  | expression => "expression"

inductive DefaultExport where
  | function (shape : FunctionShape)
  | value (is : ValueClass) (text : String)
deriving DecidableEq

namespace Module

variable (m : Module)

/-- The type that an ascription gives. -/
def ascribed (n : Node) : Option String :=
  match n.namedChildren with
  | t :: _ => some (m.textOf t)
  | [] =>
    match Text.trim ((n.span.cut m.text).dropWhile (· = ':')) with
    | [] => none
    | t => some (String.ofList t)

def parameterOf (n : Node) : Option Parameter :=
  match n.kind? with
  | some .requiredParameter | some .optionalParameter =>
    some {
      name := ((n.child? .pattern).map m.textOf).getD "unknown"
      typeText := (((n.child? .type).bind m.ascribed).filter (· ≠ "")).getD "any"
      optional := n.kind? = some .optionalParameter }
  | _ => none

def parametersOf (f : Node) : List Parameter :=
  match f.child? .parameter with
  | some p => [⟨m.textOf p, "any", false⟩]
  | none =>
    match f.child? .parameters with
    | some list => list.namedChildren.filterMap m.parameterOf
    | none => []

def nameOf (n : Node) : Option String :=
  ((n.child? .name).map m.textOf).filter (· ≠ "")

def functionShape (f : Node) (name : Option String) : FunctionShape where
  parameters := m.parametersOf f
  returnType := (f.child? .returns).bind m.ascribed
  isAsync := f.hasToken "async"
  name := name

def exports : List Node :=
  m.root.namedChildren.filter fun n => n.kind? = some .exportStatement

def isDefault (e : Node) : Bool := e.hasToken "default"

def defaultStatement : Option Node := m.exports.find? isDefault

/-- The names that a statement binds, each with the node that binds it. -/
def bindings (statement : Node) : List (String × Node) :=
  match statement.kind? with
  | some .functionDeclaration | some .classDefinition =>
    ((m.nameOf statement).map fun name => (name, statement)).toList
  | some .variableStatement =>
    statement.namedChildren.filterMap fun d =>
      if d.kind? = some .declarator then
        (d.child? .name).bind fun n =>
          if n.kind? = some .identifier then some (m.textOf n, d) else none
      else none
  | _ => []

/-- The names that a statement at the top of the module binds. -/
def topBindings (statement : Node) : List (String × Node) :=
  if statement.kind? = some .exportStatement then
    ((statement.child? .declaration).map m.bindings).getD []
  else m.bindings statement

/-- The first node that binds `name` at the top of the module. -/
def declared? (name : String) : Option Node :=
  (m.root.namedChildren.flatMap m.topBindings).find? (·.1 = name) |>.map (·.2)

def classify (value : Node) : ValueClass :=
  match value.kind? with
  | some .object => .objectLiteral
  | some .classDefinition => .classDefinition
  | some .literal | some .string | some .undefinedName => .literal
  | some .identifier => .identifier
  | _ => .expression

/-- What the name of a default export stands for. -/
def resolve (name : String) : DefaultExport :=
  match m.declared? name with
  | none => .value .identifier name
  | some d =>
    match d.kind? with
    | some .functionDeclaration => .function (m.functionShape d name)
    | some .classDefinition => .value .classDefinition name
    | _ =>
      match (d.child? .value).map Node.unwrap with
      | none => .value .identifier name
      | some v =>
        if v.kind? = some .functionValue then .function (m.functionShape v name)
        else match classify v with
          | .expression => .value .identifier name
          | is => .value is name

def describe (value : Node) : DefaultExport :=
  let v := value.unwrap
  match v.kind? with
  | some .functionValue => .function (m.functionShape v (m.nameOf v))
  | some .identifier => m.resolve (m.textOf v)
  | _ => .value (classify v) (m.textOf v)

def defaultExport : Option DefaultExport :=
  m.defaultStatement.map fun e =>
    match e.child? .declaration with
    | some d =>
      match d.kind? with
      | some .functionDeclaration => .function (m.functionShape d (m.nameOf d))
      | some .classDefinition => .value .classDefinition (m.textOf d)
      | _ => .value .expression (m.textOf d)
    | none =>
      match e.child? .value with
      | some v => m.describe v
      | none => .value .expression (m.textOf e)

/-- The name under which the default export is known inside the module. -/
def defaultName : Option String :=
  m.defaultStatement.bind fun e =>
    match e.child? .value with
    | some v => if v.unwrap.kind? = some .identifier then some (m.textOf v.unwrap) else none
    | none => (e.child? .declaration).bind m.nameOf

/-- Whether what a name is bound to is a function. -/
def bindsFunction (n : Node) : Bool :=
  match n.kind? with
  | some .functionDeclaration => true
  | some .declarator => (n.child? .value).any fun v => v.unwrap.kind? = some .functionValue
  | _ => false

def namedExports : List Node := m.exports.filter fun e => !isDefault e

/-- Functions exported by name, other than the default export. -/
def namedFunctions : List String :=
  ((m.namedExports.flatMap m.topBindings).filter fun b =>
    bindsFunction b.2 && some b.1 ≠ m.defaultName).map (·.1)

/-- Variables exported by name, in source order. -/
def exportedVariables : List String :=
  m.namedExports.flatMap fun e =>
    match e.child? .declaration with
    | some d => if d.kind? = some .variableStatement then (m.bindings d).map (·.1) else []
    | none => []

end Module

end ConventionLint
