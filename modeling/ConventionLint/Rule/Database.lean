import ConventionLint.Rule.Basic

/-! Rules on the use of databases and portals. -/
namespace ConventionLint.Rule

open Text

/-- The variable that the portal's database property is declared by. -/
def portalVariable? (c : Conventions) (text : String) : Option String :=
  ObjectType.typeofProperty? text (c.setting .portalAlias) (c.setting .portalProperty)

/-- The portal's database property by its full name. -/
def portalProperty (c : Conventions) : String :=
  c.setting .portalAlias ++ "." ++ c.setting .portalProperty

def functionPortalDatabase : Rule where
  name := "function-portal-database"
  area := "function"
  description := "The portal's database property names a known database variable"
  check c := do
    match portalVariable? c.conventions c.content with
    | none => return .skipped ("no " ++ portalProperty c.conventions ++ " typeof property")
    | some database =>
      let catalog ← Run.catalog
      if catalog.contains database then return .pass
      else if !c.conventions.strictPortal then
        return .skipped ("'" ++ database ++ "' is not a known database variable")
      else
        let names := catalog.names
        let known := if names.isEmpty then "(none found)" else ", ".intercalate names
        return .failed <| portalProperty c.conventions
          ++ " must be typeof one of the database variables: " ++ known ++ ". Found: typeof "
          ++ database ++ ". " ++ c.docPointer

/-- Whether a module path leads to a connection module. -/
def isConnection (c : Conventions) (i : Import) : Bool :=
  contains (c.setting .connectionMarker).toList i.module.toList

/-- Whether an import is for types only; a single specifier that is makes the whole one so. -/
def isForTypes (i : Import) : Bool := i.typeOnly || i.names.any (·.typeOnly)

def functionDbImportsTypeOnly : Rule where
  name := "function-db-imports-type-only"
  area := "function"
  description := "Imports from connection modules are type-only"
  check c := do
    match (← c.module).imports.find? fun i => isConnection c.conventions i && !isForTypes i with
    | none => return .pass
    | some i =>
      let names := i.boundNames
      return .failed <| "Database connection imports must be type-only. "
        ++ "Found non-type-only import: " ++ oneLine i.text lineLimit ++ ". "
        ++ "Use 'import type \x7b " ++ ", ".intercalate names ++ " \x7d from \"" ++ i.module ++ "\"' "
        ++ "or 'import \x7b type " ++ ", type ".intercalate names ++ " \x7d from \"" ++ i.module
        ++ "\"'. Database connections should only be used for typing, not runtime values. "
        ++ c.docPointer

def functionTestImportsTestingDb : Rule where
  name := "function-test-imports-testing-db"
  area := "function"
  description := "Tests of database functions import the testing database factory"
  targets := .test
  check c := do
    let setting := c.conventions.setting
    let implementation := implementationFile c.absolutePath.toString (setting .testMarker)
    match ← Run.ofExcept .read ((← read).readText? (Path.parse implementation)) with
    | none => return .skipped ("implementation file " ++ implementation ++ " does not exist")
    | some text =>
      match portalVariable? c.conventions text with
      | none => return .skipped "implementation declares no database dependency"
      | some database =>
        let factory := testingFactoryName database (setting .databaseSuffix)
        Run.record .debug .functionRules (c.file ++ " requires testing factory " ++ factory)
        let imports := (← c.module).imports
        let present := imports.any fun i =>
          isConnection c.conventions i && i.names.any fun n => n.name = factory
        return .passIf present <|
          "Test file must import testing database function when testing database operations. "
            ++ "Expected import: import \x7b " ++ factory ++ " \x7d from '@/" ++ setting .databaseArea
            ++ "/.../" ++ setting .connectionMarker
            ++ "...ts'. Your function uses database variable '" ++ database
            ++ "', so tests must use '" ++ factory ++ "()' instead of mocking. " ++ c.docPointer

/-- The directory of the function area as it stands in module paths. -/
def functionSegment (c : Conventions) : String :=
  "/" ++ (Path.parse (c.setting .functionArea)).name ++ "/"

def controllerPortalExcludesFunctions : Rule where
  name := "controller-portal-excludes-functions"
  area := "controller"
  description := "The controller portal does not carry functions from the function area"
  check c := do
    let segment := functionSegment c.conventions
    let imported := ((← c.module).imports.filter fun i =>
      contains segment.toList i.module.toList).flatMap (·.boundNames)
    if imported.isEmpty then return .skipped "no imports from the function area"
    else
      let typeName := c.conventions.setting .portalAlias
      match ObjectType.find? c.content typeName false with
      | none => return .skipped ("no " ++ typeName ++ " type alias")
      | some t =>
        let offending := t.names.filter imported.contains
        return .passIf offending.isEmpty <|
          typeName ++ " must not contain function imports. Found: " ++ ", ".intercalate offending
            ++ ". Controllers should import and call functions directly, not pass them through "
            ++ typeName ++ ". " ++ typeName
            ++ " should only contain variables (like db connections) that need to be mocked "
            ++ "for testing. " ++ c.docPointer

end ConventionLint.Rule
