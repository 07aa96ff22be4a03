import ConventionLint.Rule.Basic
import ConventionLint.Text.Case

/-! Rules on the default export and its signature. -/
namespace ConventionLint.Rule

open Text

/-- The default export of a file, if it is a function. -/
def defaultFunction? (c : Context) : Run (Option FunctionShape) := do
  match (← c.module).defaultExport with
  | some (.function f) => return some f
  | _ => return none

/-- A text on one line, behind the word that marks what was found. -/
def found (c : Context) (text : String) : String :=
  "Found: " ++ oneLine text lineLimit ++ ". " ++ c.docPointer

def noFunction : Outcome := .skipped "default export is not a function"

def exportsFunction (c : Context) (subject : String) : Run Outcome := do
  match (← c.module).defaultExport with
  | none => return .skipped "no default export"
  | some (.function _) => return .pass
  | some (.value kind text) =>
    return .failed <| subject ++ " default export must be a function. Found: " ++ kind.label ++ " ("
      ++ oneLine text lineLimit ++ "). " ++ c.docPointer

/-- There is one parameter for each role. -/
def countsParameters (c : Context) (subject : String) (roles : List ParameterRole) :
    Run Outcome := do
  match ← defaultFunction? c with
  | none => return noFunction
  | some f =>
    let expected := roles.length
    let actual := f.parameters.length
    return .passIf (actual = expected) <|
      subject ++ " must have exactly " ++ toString expected
        ++ (if expected = 1 then " parameter (" else " parameters (")
        ++ c.conventions.roleTypes roles ++ "), found " ++ toString actual ++ ". "
        ++ found c f.signature

/-- The place of a parameter in words. -/
def ordinal (position : Nat) : String :=
  match position with
  | 0 => "first"
  | 1 => "second"
  | 2 => "third"
  | n => "#" ++ toString (n + 1)

/-- The parameter that stands where a role does mentions the role's marker. -/
def marksParameter (c : Context) (subject : String) (roles : List ParameterRole)
    (role : ParameterRole) (ignoreCase : Bool) : Run Outcome := do
  match roles.findIdx? (· = role) with
  | none => return .skipped ("no " ++ role.name ++ " parameter in this naming class")
  | some position =>
    match ← defaultFunction? c with
    | none => return noFunction
    | some f =>
      match f.parameters[position]? with
      | none => return .skipped ("no parameter at position " ++ toString (position + 1))
      | some parameter =>
        let marker := c.conventions.roleMarker role
        let fold (s : String) := if ignoreCase then lower s.toList else s.toList
        return .passIf (contains (fold marker) (fold parameter.typeText)) <|
          subject ++ " " ++ ordinal position ++ " parameter must use the " ++ marker
            ++ " type (contains '" ++ marker ++ "'). " ++ found c parameter.typeText

/-- The return type is written and mentions a marker. -/
def marksResult (c : Context) (subject marker : String) : Run Outcome := do
  match ← defaultFunction? c with
  | none => return noFunction
  | some f =>
    match f.returnType with
    | none | some "" =>
      return .failed <| subject ++ " must have an explicit return type. Expected: " ++ marker
        ++ "<Data>. " ++ c.docPointer
    | some text =>
      return .passIf (contains marker.toList text.toList) <|
        subject ++ " must return " ++ marker ++ "<Data>. " ++ found c text

/-- A check for files whose name has a naming class. -/
def withClass (check : NamingClass → Run Outcome) (c : Context) : Run Outcome :=
  match c.conventions.classOf? c.fileName with
  | none => pure (.skipped "file name has no naming-class prefix")
  | some k => check k

def functionDefaultExport : Rule where
  name := "function-default-export"
  area := "function"
  description := "Function files have a default export"
  check c := do
    return .passIf (← c.module).defaultExport.isSome <|
      "Function must have a default export. Found no 'export default' in " ++ c.fileName ++ ". "
        ++ c.docPointer

def functionDefaultExportIsFunction : Rule where
  name := "function-default-export-is-function"
  area := "function"
  description := "The default export is a function"
  check c := exportsFunction c "Function"

def functionSingleExport : Rule where
  name := "function-single-export"
  area := "function"
  description := "No exported functions besides the default export"
  check c := do
    let names := (← c.module).namedFunctions
    let fronts := c.conventions.namingClasses.map fun k =>
      String.ofList (dropEnd '.' k.front.toList)
    return .passIf names.isEmpty <|
      "Single file, single function principle violated. Found additional exported function(s): "
        ++ ", ".intercalate names ++ ". " ++ "/".intercalate fronts
        ++ " files should only export ONE function (the default export). "
        ++ "Types, interfaces and constants may be exported, but not additional functions. "
        ++ "Make helper functions non-exported (inline them) or move them to a separate file. "
        ++ c.docPointer

def functionParameterCount : Rule where
  name := "function-parameter-count"
  area := "function"
  description := "Parameter count matches the naming class"
  check c := withClass (fun k => countsParameters c k.label k.parameters) c

def functionPortalParameter : Rule where
  name := "function-portal-parameter"
  area := "function"
  description := "The portal parameter is typed with the portal marker"
  check c := withClass (fun k => marksParameter c k.label k.parameters .portal false) c

def functionArgsParameter : Rule where
  name := "function-args-parameter"
  area := "function"
  description := "The arguments parameter is typed with the args marker"
  check c := withClass (fun k => marksParameter c k.label k.parameters .args false) c

def functionReturnType : Rule where
  name := "function-return-type"
  area := "function"
  description := "Return type carries the naming class's result marker"
  check c := withClass (fun k => do
    marksResult c k.label (← Run.ofExcept .unknown (c.conventions.resultMarker k))) c

/-- What messages call a controller. -/
def controllerSubject : String := "Controller function"

def controllerDefaultExportIsFunction : Rule where
  name := "controller-default-export-is-function"
  area := "controller"
  description := "Controllers default export a function"
  check c := do
    if (← c.module).defaultExport.isNone then
      return .failed <| "Controller must have a default export function. "
        ++ "Found no 'export default' in " ++ c.fileName ++ ". " ++ c.docPointer
    else exportsFunction c "Controller"

def controllerParameterCount : Rule where
  name := "controller-parameter-count"
  area := "controller"
  description := "Controllers take the portal and the arguments"
  check c := countsParameters c controllerSubject c.conventions.controllerParameters

def controllerPortalParameter : Rule where
  name := "controller-portal-parameter"
  area := "controller"
  description := "The controller portal parameter mentions the portal marker"
  check c := marksParameter c controllerSubject c.conventions.controllerParameters .portal true

def controllerArgsParameter : Rule where
  name := "controller-args-parameter"
  area := "controller"
  description := "The controller arguments parameter mentions the args marker"
  check c := marksParameter c controllerSubject c.conventions.controllerParameters .args true

def controllerReturnType : Rule where
  name := "controller-return-type"
  area := "controller"
  description := "Controllers return the two-element result tuple"
  check c := do
    match c.conventions.resultMarkers.lookup "tuple" with
    | some marker => marksResult c controllerSubject marker
    | none => Run.fail (.unknown ⟨"tuple"⟩)

end ConventionLint.Rule
