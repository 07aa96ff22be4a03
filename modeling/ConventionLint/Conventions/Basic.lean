import ConventionLint.Text.Front
import ConventionLint.Text.Quoted

/-! Conventions: the names and the layout that modules are checked against. -/
namespace ConventionLint

open Text

/-- Conventions that are texts. -/
inductive Setting where
  | functionArea
  | controllerArea
  | databaseArea
  | apiArea
  | sourceRoot
  | portalMarker
  | argsMarker
  | connectionMarker
  | databaseSuffix
  | portalAlias
  | portalProperty
  | testMarker
  | controllerFront
  | apiFront
  | routeFront
deriving DecidableEq

namespace Setting

/-- The settings in the order in which they are read. -/
def all : List Setting :=
  [functionArea, controllerArea, databaseArea, apiArea, sourceRoot, portalMarker, argsMarker,
   connectionMarker, databaseSuffix, portalAlias, portalProperty, testMarker, controllerFront,
   apiFront, routeFront]

/-- The name in a configuration file. -/
def key : Setting → String
  | functionArea => "function_area"
  | controllerArea => "controller_area"
  | databaseArea => "database_area"
  | apiArea => "api_area"
  | sourceRoot => "source_root"
  | portalMarker => "portal_marker"
  | argsMarker => "args_marker"
  | connectionMarker => "connection_path_marker"
  | databaseSuffix => "database_suffix"
  | portalAlias => "portal_alias"
  | portalProperty => "portal_database_property"
  | testMarker => "test_marker"
  | controllerFront => "controller_prefix"
  | apiFront => "api_prefix"
  | routeFront => "api_route_prefix"

/-- What holds if nothing is configured. -/
def standard : Setting → String
  | functionArea => "src/function"
  | controllerArea => "src/controller"
  | databaseArea => "src/database"
  | apiArea => "src/api"
  | sourceRoot => "src"
  | portalMarker => "Portal"
  | argsMarker => "Args"
  | connectionMarker => "conn."
  | databaseSuffix => "Db"
  | portalAlias => "TPortal"
  | portalProperty => "db"
  | testMarker => ".test"
  | controllerFront => "ctrl."
  | apiFront => "api."
  | routeFront => "/api/"

end Setting

/-- What a parameter of a function is for. -/
inductive ParameterRole where
  | portal
  | args
deriving DecidableEq

namespace ParameterRole

def name : ParameterRole → String
  | portal => "portal"
  | args => "args"

def ofName? (s : String) : Option ParameterRole :=
  if s = "portal" then some portal else if s = "args" then some args else none

end ParameterRole

/-- The start of a file name and the signature that it stands for. -/
structure NamingClass where
  front : String
  label : String
  /-- The name of a result marker. -/
  result : String
  parameters : List ParameterRole
deriving DecidableEq

/-- The layers of a project. -/
inductive Area where
  | function
  | controller
  | database
  | api
deriving DecidableEq

namespace Area

/-- The areas in the order in which a path is looked up. -/
def all : List Area := [function, controller, database, api]

def name : Area → String
  | function => "function"
  | controller => "controller"
  | database => "database"
  | api => "api"

def setting : Area → Setting
  | function => .functionArea
  | controller => .controllerArea
  | database => .databaseArea
  | api => .apiArea

def ofName? (s : String) : Option Area := all.find? fun a => a.name = s

/-- The document about an area, if nothing is configured. -/
def standardDoc : Area → String
  | function => "docs/conventions/functions.md"
  | controller => "docs/conventions/controllers.md"
  | database => "docs/conventions/database.md"
  | api => "docs/conventions/api.md"

end Area

/-- The area of rules for all files of a project. -/
def generalArea : String := "general"

/-- Directories whose files are not checked. -/
def ignoredDirectories : List String := ["node_modules", ".git", "dist", "build"]

namespace Conventions

def standardClasses : List NamingClass :=
  [⟨"fn.", "Pure function", "tuple", [.args]⟩,
   ⟨"fx.", "Effectful function", "tuple", [.portal, .args]⟩,
   ⟨"tx.", "Transactional function", "triple", [.portal, .args]⟩]

def standardMarkers : List (String × String) := [("tuple", "TErrTuple"), ("triple", "TErrTriple")]

def standardDocs : List (String × String) :=
  Area.all.map (fun a => (a.name, a.standardDoc)) ++ [(generalArea, "docs/conventions/general.md")]

end Conventions

structure Conventions where
  setting : Setting → String := Setting.standard
  namingClasses : List NamingClass := Conventions.standardClasses
  /-- The return types that results are marked by. -/
  resultMarkers : List (String × String) := Conventions.standardMarkers
  controllerParameters : List ParameterRole := [.portal, .args]
  /-- The starts of file names in the database area. -/
  databaseFronts : List String := ["conn.", "schema.", "auth."]
  /-- Whether a portal's database has to be a known one. -/
  strictPortal : Bool := false
  docs : List (String × String) := Conventions.standardDocs

/-- A name that was looked up and is not there. -/
structure UnknownName where
  name : String
deriving DecidableEq

def UnknownName.message (e : UnknownName) : String := quoted e.name

namespace Conventions

variable (c : Conventions)

/-- The first class whose start a file name has. -/
def classOf? (fileName : String) : Option NamingClass :=
  c.namingClasses.find? fun k => (after? k.front.toList fileName.toList).isSome

def resultMarker (k : NamingClass) : Except UnknownName String :=
  match c.resultMarkers.lookup k.result with
  | some marker => .ok marker
  | none => .error ⟨k.result⟩

def roleMarker : ParameterRole → String
  | .portal => c.setting .portalMarker
  | .args => c.setting .argsMarker

/-- The types of parameters, by convention. -/
def roleTypes (roles : List ParameterRole) : String :=
  ", ".intercalate (roles.map fun r => "T" ++ c.roleMarker r)

def areaRoot (a : Area) : String := c.setting a.setting

/-- The start of all paths in an area. -/
def areaFront (a : Area) : List Char := dropEnd '/' (c.areaRoot a).toList ++ ['/']

/-- The first area that a path of a project lies in. -/
def areaOf? (path : String) : Option Area :=
  Area.all.find? fun a => (after? (c.areaFront a) path.toList).isSome

/-- The root of the area of a name. -/
def rootOf (area : String) : Except UnknownName String :=
  match Area.ofName? area with
  | some a => .ok (c.areaRoot a)
  | none => .error ⟨area⟩

/-- The document about an area. Areas without a standard document are unknown, whatever is
configured. -/
def docOf (area : String) : Except UnknownName String :=
  match standardDocs.lookup area with
  | some standard => .ok ((c.docs.lookup area).getD standard)
  | none => .error ⟨area⟩

/-- A hint to a document. -/
def hint (doc : String) : String := "You might want to read " ++ doc

/-- Points to what can be read about an area. -/
def docPointer (area : String) : Except UnknownName String := (c.docOf area).map hint

/-- Points to what can be read about one of the areas, which all have a document. -/
def areaPointer (a : Area) : String := hint ((c.docs.lookup a.name).getD a.standardDoc)

end Conventions

end ConventionLint
