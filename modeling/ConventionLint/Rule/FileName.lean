import ConventionLint.Rule.Basic
import ConventionLint.Text.Case

/-! Rules on the path of a file. -/
namespace ConventionLint.Rule

open Text

/-- Whether a text starts with another one. -/
def startsWith (front text : String) : Bool := (after? front.toList text.toList).isSome

/-- What was found instead of what is asked for, with a pointer to the document. -/
def foundName (p : Place) : String := "Found: " ++ p.fileName ++ ". " ++ p.docPointer

def functionFileName : Rule :=
  onPath "function-file-name" "function" "Function file names start with a naming-class prefix" .all
    fun p => pure <| .passIf (p.conventions.classOf? p.fileName).isSome <|
      "Function file names must start with "
        ++ alternatives (p.conventions.namingClasses.map (·.front)) ++ ". " ++ foundName p

/-- A module directory and a file in it. -/
def functionDepth : Nat := 2

def functionPathDepth : Rule :=
  onPath "function-path-depth" "function"
    "Function files sit at most one module directory below the area" .all
    fun p => pure <| .passIf (p.areaParts.length ≤ functionDepth) <|
      "Function path cannot have more than 1 level of module nesting. Found "
        ++ toString p.areaParts.length ++ " levels: " ++ p.areaRelative?.getD "" ++ ". "
        ++ p.docPointer

def controllerFileName : Rule :=
  onPath "controller-file-name" "controller"
    "Controller file names start with the controller prefix" .all
    fun p =>
      let front := p.conventions.setting .controllerFront
      pure <| .passIf (startsWith front p.fileName) <|
        "Controller file names must start with '" ++ front ++ "'. " ++ foundName p

def apiFileName : Rule :=
  onPath "api-file-name" "api" "API file names start with the API prefix" .source
    fun p =>
      let front := p.conventions.setting .apiFront
      pure <| .passIf (startsWith front p.fileName) <|
        "API file names must start with '" ++ front ++ "'. " ++ foundName p

def databaseFileName : Rule :=
  onPath "database-file-name" "database" "Database file names start with a database file prefix"
    .source
    fun p =>
      let fronts := p.conventions.databaseFronts
      pure <| .passIf (fronts.any fun f => startsWith f p.fileName) <|
        "Database file names must start with " ++ alternatives fronts ++ ". " ++ foundName p

/-- A file name without its last extension. -/
def stem (fileName : String) : String :=
  match splitLast? '.' fileName.toList with
  | some (front, _) => String.ofList front
  | none => fileName

/-- Whether a stem is a database's name behind a start, with a kind and a dot between them or
without. -/
def namesDatabase (database stem front : String) : Bool :=
  stem = front ++ database ||
    (startsWith front stem && (before? ('.' :: database.toList) stem.toList).isSome)

/-- The database area without slashes at its end. -/
def databaseRoot (p : Place) : String :=
  String.ofList (dropEnd '/' (p.conventions.setting .databaseArea).toList)

def databaseFileNameMatchesDirectory : Rule :=
  onPath "database-file-name-matches-directory" "database"
    "Database file names end with their directory's database name" .source
    fun p =>
      match p.areaParts with
      | database :: _ :: _ =>
        let fronts := p.conventions.databaseFronts
        pure <| .passIf (fronts.any (namesDatabase database (stem p.fileName))) <|
          "Database file name must match the directory name. Expected patterns: "
            ++ ", ".intercalate (fronts.map fun f => f ++ database ++ ".ts")
            ++ ", or <prefix><type>." ++ database ++ ".ts. Found: " ++ p.fileName ++ " in "
            ++ databaseRoot p ++ "/" ++ database ++ "/. " ++ p.docPointer
      | _ => pure (.skipped "file is not inside a database directory")

def databasePathDepth : Rule :=
  onPath "database-path-depth" "database" "Database files sit exactly one directory below the area"
    .source
    fun p => pure <| .passIf (p.areaParts.length = 2) <|
      "Database files must be at " ++ databaseRoot p
        ++ "/<dbname>/<file>.ts. No subdirectories or additional nesting allowed. Found: "
        ++ p.relativePath?.getD "None" ++ ". " ++ p.docPointer

def scriptSuffixes : List String := [".js", ".jsx", ".mjs", ".cjs"]

def typedSuffixes : List String := [".ts", ".tsx"]

def noJavaScript : Rule :=
  onPath "general-no-js-files" generalArea "The project contains no JavaScript files" .source
    fun p => do
      if scriptSuffixes.contains (Path.suffixOf (String.ofList (lower p.fileName.toList))) then
        let path := p.relativePath?.getD "None"
        Run.record .debug .generalRules ("JavaScript file detected: " ++ path)
        return .failed <| "JavaScript files are not allowed in this project. Found: " ++ path
          ++ ". Please use TypeScript (.ts) files instead."
      else return .pass

def noTypeScriptInRoot : Rule :=
  onPath "general-no-ts-file-in-root" generalArea "No TypeScript files in the project root" .source
    fun p =>
      let path := p.relativePath?.getD ""
      let elsewhere := path.toList.contains '/' || !typedSuffixes.contains (Path.parse path).suffix
      pure <| .passIf elsewhere <|
        ".ts and .tsx files are not allowed in the project root. Found: " ++ path
          ++ ". Please place TypeScript files in the appropriate "
          ++ p.conventions.setting .sourceRoot
          ++ "/ subdirectory. If you need to create one off scripts place them in "
          ++ "one-off-scripts/ directory."

end ConventionLint.Rule
