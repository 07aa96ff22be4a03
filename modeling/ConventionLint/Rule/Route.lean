import ConventionLint.Rule.FileName

/-! Rules on modules that declare routes. -/
namespace ConventionLint.Rule

open Text

/-- The class that routes are declared by, and the module it comes from. -/
def frameworkClass : String := "Elysia"

def frameworkModule : String := "elysia"

def routeOption : String := "prefix"

def apiImportsElysia : Rule where
  name := "api-imports-elysia"
  area := "api"
  description := "API modules import Elysia"
  check c := do
    let present := (← c.module).imports.any fun i =>
      i.module = frameworkModule && i.names.any fun n => n.name = frameworkClass
    return .passIf present <|
      "API files must import Elysia from 'elysia'. File " ++ c.fileName
        ++ " does not import Elysia. Add: import \x7b Elysia \x7d from 'elysia'; " ++ c.docPointer

def apiDefaultExportIsElysia : Rule where
  name := "api-default-export-is-elysia"
  area := "api"
  description := "API modules default export a new Elysia instance"
  check c := do
    let present := (← c.module).defaultConstruction.any fun n => n.constructor = frameworkClass
    return .passIf present <|
      "API files must default export a new Elysia() instance. File " ++ c.fileName
        ++ " does not export an Elysia instance. Use: export default new Elysia(\x7b prefix: '"
        ++ c.conventions.setting .routeFront ++ "...' \x7d).get(...); " ++ c.docPointer

/-- The value of the first route option among the constructions of a module; none inside if it is
not a plain text. -/
def routeFront? (constructions : List Construction) : Option (Option String) :=
  constructions.findSome? fun n => n.options.bind fun os => os.lookup routeOption

def apiElysiaHasPrefix : Rule where
  name := "api-elysia-has-prefix"
  area := "api"
  description := "The Elysia instance declares a route prefix under the API root"
  check c := do
    let constructions := (← c.module).constructionsOf frameworkClass
    let front := c.conventions.setting .routeFront
    if constructions.isEmpty then return .skipped "no new Elysia() in file"
    else match routeFront? constructions with
      | some none => return .pass
      | some (some value) =>
        return .passIf (startsWith front value) <|
          "API Elysia prefix must start with '" ++ front ++ "'. Found prefix: '" ++ value ++ "' in "
            ++ c.fileName ++ ". " ++ c.docPointer
      | none =>
        return .failed <| "API Elysia instance must have a 'prefix' option. File " ++ c.fileName
          ++ " is missing prefix. Use: new Elysia(\x7b prefix: '" ++ front
          ++ "module/endpoint' \x7d) " ++ c.docPointer

/-- The last segment of a module path. -/
def lastSegment (path : String) : String :=
  match splitLast? '/' path.toList with
  | some (_, back) => String.ofList back
  | none => path

def apiImportsController : Rule where
  name := "api-imports-controller"
  area := "api"
  description := "API modules import at least one controller"
  check c := do
    let front := c.conventions.setting .controllerFront
    let present := (← c.module).imports.any fun i => startsWith front (lastSegment i.module)
    if present then return .pass
    else
      let doc ← Run.ofExcept .unknown (c.conventions.docOf "controller")
      return .failed <| "API files must import at least one controller file (" ++ front
        ++ "*). File " ++ c.fileName ++ " does not import any controller. "
        ++ "Controllers handle business logic and database operations. "
        ++ "API handlers should delegate to controllers and pass all necessary parameters "
        ++ "including database connections. " ++ c.docPointer ++ " and " ++ doc

end ConventionLint.Rule
