import ConventionLint.Conventions.Basic
import ConventionLint.Data.Value
import ConventionLint.Text.Blank

/-! Conventions from configured values. -/
namespace ConventionLint

open Data Text

/-- What is wrong with a configuration. -/
inductive ConfigError where
  | notMapping
  | version (shown : String)
  | versionType (kind : String)
  | blank (key : String)
  | notMappingAt (key : String)
  | blankAt (key name : String)
  | noClasses
  | classNotMapping (index : Nat)
  | classUnnamed (index : Nat)
  | classTwice (front : String)
  | unknownResult (front result : String) (known : List String)
  | noRoles (place : String)
  | unknownRole (place role : String)
  | noDatabaseFronts
deriving DecidableEq

namespace ConfigError

def shownList (names : List String) : String := "[" ++ ", ".intercalate (names.map quoted) ++ "]"

def sorted (names : List String) : List String := names.mergeSort fun a b => decide (a ≤ b)

def message : ConfigError → String
  | notMapping => "bakelint.yml must be a YAML mapping"
  | version shown => "bakelint.yml: unsupported version " ++ shown ++ ", expected one of [1]"
  | versionType kind => "unhashable type: '" ++ kind ++ "'"
  | blank key => "bakelint.yml: '" ++ key ++ "' must be a non-empty string"
  | notMappingAt key => "bakelint.yml: '" ++ key ++ "' must be a mapping"
  | blankAt key name => "bakelint.yml: '" ++ key ++ "." ++ name ++ "' must be a non-empty string"
  | noClasses => "bakelint.yml: 'prefixes' must be a non-empty list"
  | classNotMapping i => "bakelint.yml: prefix at index " ++ toString i ++ " must be a mapping"
  | classUnnamed i =>
    "bakelint.yml: prefix at index " ++ toString i ++ " missing required 'prefix' field"
  | classTwice front => "bakelint.yml: duplicate prefix '" ++ front ++ "'"
  | unknownResult front result known =>
    "bakelint.yml: prefix '" ++ front ++ "' has invalid result '" ++ result
      ++ "', must be one of " ++ shownList (sorted known)
  | noRoles place => place ++ ": 'parameters' must be a non-empty list"
  | unknownRole place role =>
    place ++ ": invalid parameter role '" ++ role ++ "', must be one of ['args', 'portal']"
  | noDatabaseFronts => "bakelint.yml: 'database_file_prefixes' must be a non-empty list"

end ConfigError

namespace Conventions

/-- A text that is not blank. -/
def filled? : Value → Option String
  | .text s => if (trim s.toList).isEmpty then none else some s
  | _ => none

/-- The only version is 1, in any form that is equal to it. -/
def checkVersion (entries : List (Value × Value)) : Except ConfigError Unit :=
  match (Value.lookup "version" entries).getD (.number (.int 1)) with
  | .list _ => .error (.versionType "list")
  | .map _ => .error (.versionType "dict")
  | v => if (v.keyNumber?.any (·.isInt 1)) then .ok () else .error (.version v.plain)

/-- Replaces one setting, if it is configured. -/
def readSetting (entries : List (Value × Value)) (current : Setting → String) (s : Setting) :
    Except ConfigError (Setting → String) :=
  match Value.lookup s.key entries with
  | none => .ok current
  | some v =>
    match filled? v with
    | none => .error (.blank s.key)
    | some text => .ok fun t => if t = s then text else current t

def readSettings (entries : List (Value × Value)) : Except ConfigError (Setting → String) :=
  Setting.all.foldlM (readSetting entries) Setting.standard

/-- Puts a text under a name; a name that is there keeps its place. -/
def put (name text : String) : List (String × String) → List (String × String)
  | [] => [(name, text)]
  | e :: r => if e.1 = name then (name, text) :: r else e :: put name text r

/-- Names with texts that are not blank, put over those that are there. -/
def readTexts (key : String) (base : List (String × String)) (v : Value) :
    Except ConfigError (List (String × String)) :=
  match v with
  | .map entries =>
    entries.foldlM
      (fun m e =>
        match filled? e.2 with
        | none => .error (.blankAt key e.1.plain)
        | some text => .ok (put e.1.plain text m))
      base
  | _ => .error (.notMappingAt key)

def readRole (place : String) (v : Value) : Except ConfigError ParameterRole :=
  match ParameterRole.ofName? v.plain with
  | some r => .ok r
  | none => .error (.unknownRole place v.plain)

def readRoles (place : String) : Value → Except ConfigError (List ParameterRole)
  | .list (v :: vs) => (v :: vs).mapM (readRole place)
  | _ => .error (.noRoles place)

/-- A naming class; `earlier` are the starts of those before it. -/
def readClass (markers : List (String × String)) (earlier : List String) (index : Nat) :
    Value → Except ConfigError NamingClass
  | .map entries =>
    match (Value.lookup "prefix" entries).bind filled? with
    | none => .error (.classUnnamed index)
    | some front =>
      if earlier.contains front then .error (.classTwice front)
      else
        let result := ((Value.lookup "result" entries).map Value.plain).getD "tuple"
        if (markers.lookup result).isNone then
          .error (.unknownResult front result (markers.map (·.1)))
        else do
          let parameters ← readRoles ("bakelint.yml: prefix '" ++ front ++ "'")
            ((Value.lookup "parameters" entries).getD (.list [.text "args"]))
          let label := ((Value.lookup "label" entries).map Value.plain).getD
            ("'" ++ front ++ "' function")
          return ⟨front, label, result, parameters⟩
  | _ => .error (.classNotMapping index)

def readClassesFrom (markers : List (String × String)) (earlier : List String) (index : Nat) :
    List Value → Except ConfigError (List NamingClass)
  | [] => .ok []
  | v :: r => do
    let k ← readClass markers earlier index v
    let ks ← readClassesFrom markers (k.front :: earlier) (index + 1) r
    return k :: ks

def readClasses (markers : List (String × String)) : Value → Except ConfigError (List NamingClass)
  | .list (v :: vs) => readClassesFrom markers [] 0 (v :: vs)
  | _ => .error .noClasses

def readFronts : Value → Except ConfigError (List String)
  | .list (v :: vs) => .ok ((v :: vs).map Value.plain)
  | _ => .error .noDatabaseFronts

/-- Reads the value of an entry, if there is one. -/
def readEntry {α : Type} (entries : List (Value × Value)) (key : String) (standard : α)
    (read : Value → Except ConfigError α) : Except ConfigError α :=
  match Value.lookup key entries with
  | none => .ok standard
  | some v => read v

/-- Conventions from a configured value; what is not configured keeps its standard. -/
def ofValue : Value → Except ConfigError Conventions
  | .null => .ok {}
  | .map entries => do
    checkVersion entries
    let setting ← readSettings entries
    let resultMarkers ← readEntry entries "result_markers" standardMarkers
      (readTexts "result_markers" standardMarkers)
    let namingClasses ← readEntry entries "prefixes" standardClasses (readClasses resultMarkers)
    let controllerParameters ← readEntry entries "controller_parameters" [.portal, .args]
      (readRoles "bakelint.yml: controller_parameters")
    let databaseFronts ← readEntry entries "database_file_prefixes" ["conn.", "schema.", "auth."]
      readFronts
    let strictPortal := ((Value.lookup "strict_portal_database" entries).map Value.isTrue).getD false
    let docs ← readEntry entries "docs" standardDocs (readTexts "docs" standardDocs)
    return { setting, namingClasses, resultMarkers, controllerParameters, databaseFronts,
             strictPortal, docs }
  | _ => .error .notMapping

end Conventions

end ConventionLint
