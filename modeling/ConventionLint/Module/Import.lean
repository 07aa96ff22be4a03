import ConventionLint.Module.Basic

/-! What a module imports. -/
namespace ConventionLint

open Source

structure ImportedName where
  /-- The name in the module it comes from. -/
  name : String
  typeOnly : Bool
  asName : Option String
deriving DecidableEq

def ImportedName.localName (n : ImportedName) : String :=
  (n.asName.filter (· ≠ "")).getD n.name

/-- One import statement. -/
structure Import where
  module : String
  text : String
  typeOnly : Bool
  defaultName : Option String
  namespaceName : Option String
  names : List ImportedName
deriving DecidableEq

/-- Every local name the statement binds. -/
def Import.boundNames (i : Import) : List String :=
  (i.defaultName.filter (· ≠ "")).toList ++ i.names.map ImportedName.localName
    ++ (i.namespaceName.filter (· ≠ "")).toList

namespace Module

variable (m : Module)

def importedName (specifier : Node) : ImportedName where
  name := ((specifier.child? .name).map m.textOf).getD ""
  typeOnly := specifier.hasToken "type"
  asName := (specifier.child? .asName).map m.textOf

/-- The parts of the statement's import clauses. -/
def clauseParts (statement : Node) : List Node :=
  (statement.namedChildren.filter fun n => n.kind? = some .importClause).flatMap Node.namedChildren

def importOf (statement : Node) : Import :=
  let parts := clauseParts statement
  let ofKind (k : Kind) := parts.filter fun n => n.kind? = some k
  { module := String.ofList (Text.trimBoth (fun c => c = '\'' || c = '"' || c = '`')
      (((statement.child? .module).map fun s => s.span.cut m.text).getD []))
    text := m.textOf statement
    typeOnly := statement.hasToken "type"
    defaultName := (ofKind .identifier).getLast?.map m.textOf
    namespaceName := (((ofKind .namespaceImport).flatMap Node.namedChildren).filter
      fun n => n.kind? = some .identifier).getLast?.map m.textOf
    names := (((ofKind .namedImports).flatMap Node.namedChildren).filter
      fun n => n.kind? = some .importSpecifier).map m.importedName }

/-- All import statements at the top of the module, in source order. -/
def imports : List Import :=
  (m.root.namedChildren.filter fun n => n.kind? = some .importStatement).map m.importOf

end Module

end ConventionLint
