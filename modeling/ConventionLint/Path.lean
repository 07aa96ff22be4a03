import ConventionLint.Text.Front

/-! Paths of files, apart from what is there. -/
namespace ConventionLint

open Text

/-- Where a path starts. Two slashes are told from one; more count as one. -/
inductive Anchor where
  | relative
  | root
  | doubleRoot
deriving DecidableEq

def Anchor.text : Anchor → String
  | .relative => ""
  | .root => "/"
  | .doubleRoot => "//"

structure Path where
  anchor : Anchor
  parts : List String
deriving DecidableEq

/-- Links, each by its place and by the place it leads to in the end. -/
abbrev Links := List (List String × List String)

namespace Path

def anchorOf (cs : List Char) : Anchor :=
  match (cs.takeWhile (· = '/')).length with
  | 0 => .relative
  | 2 => .doubleRoot
  | _ => .root

/-- Empty components and single dots are left out. -/
def parse (s : String) : Path :=
  { anchor := anchorOf s.toList
    parts := ((splitAt '/' s.toList).filter fun p => p ≠ [] ∧ p ≠ ['.']).map String.ofList }

def toString (p : Path) : String :=
  if p.anchor = .relative ∧ p.parts = [] then "."
  else p.anchor.text ++ "/".intercalate p.parts

def isAbsolute (p : Path) : Bool := p.anchor ≠ .relative

/-- A path as seen from another one. -/
def join (p q : Path) : Path :=
  if q.isAbsolute then q else { p with parts := p.parts ++ q.parts }

/-- The last component. -/
def name (p : Path) : String := p.parts.getLastD ""

/-- The part of a file name from its last dot on; no dot at either end of the name counts. -/
def suffixOf (name : String) : String :=
  match splitLast? '.' name.toList with
  | some (front, back) =>
    if front.isEmpty || back.isEmpty then "" else String.ofList ('.' :: back)
  | none => ""

def suffix (p : Path) : String := suffixOf p.name

/-- Where a place leads: to itself, unless it is that of a link. -/
def land (links : Links) (place : List String) : List String := (links.lookup place).getD place

@[simp] theorem land_nil (place : List String) : land [] place = place := rfl

/-- The place one component further on; two dots go one up, and stay at the top. -/
def step (links : Links) (here : List String) (part : String) : List String :=
  if part = ".." then here.dropLast else land links (here ++ [part])

/-- The place that components lead to from the top. -/
def normalize (parts : List String) (links : Links := []) : List String := parts.foldl (step links) []

/-- The components from the root of a path that is seen from a directory. -/
def resolve (workingDirectory p : Path) (links : Links := []) : List String :=
  normalize (workingDirectory.join p).parts links

/-- Whether a path can be asked for at all. -/
def isValid (p : Path) : Bool := p.parts.all fun s => !s.toList.contains '\x00'

/-- What follows `front` in a list of components. -/
def below? : (front parts : List String) → Option (List String)
  | [], ps => some ps
  | _ :: _, [] => none
  | f :: fs, p :: ps => if f = p then below? fs ps else none

/-- Components joined by slashes; none of them is the directory itself. -/
def render (parts : List String) : String :=
  if parts = [] then "." else "/".intercalate parts

/-- The path of a file below a directory, none if it is not there. -/
def relative? (workingDirectory directory file : Path) (links : Links := []) : Option String :=
  let full := directory.join file
  if full.isValid && directory.isValid then
    (below? (resolve workingDirectory directory links)
      (resolve workingDirectory full links)).map render
  else none

/-- Paths are ordered by their components. -/
def le : List String → List String → Bool
  | [], _ => true
  | _ :: _, [] => false
  | a :: p, b :: q => if a = b then le p q else decide (a < b)

end Path

/-- A file name without its last dot and extension, if it ends with a marker. -/
def markedStem? (name marker : List Char) : Option (List Char × List Char) := do
  let (stem, extension) ← splitLast? '.' name
  if (before? marker stem).isSome then some (stem, extension) else none

/-- Whether the file name has the marker right before its extension. -/
def isTestFile (path marker : String) : Bool :=
  (markedStem? (Path.parse path).name.toList marker.toList).isSome

/-- The front of a stem that is left without its marker; without a marker nothing is. -/
def dropMarker (marker stem : List Char) : List Char :=
  if marker.isEmpty then [] else (before? marker stem).getD stem

/-- The path with slashes only, in two parts: up to and with the last slash, and the rest. -/
def directoryAndName (path : String) : List Char × List Char :=
  let cs := path.toList.map fun c => if c = '\\' then '/' else c
  match splitLast? '/' cs with
  | some (head, name) => (head ++ ['/'], name)
  | none => ([], cs)

/-- The file that a test file tests: the one without the marker. -/
def implementationFile (path marker : String) : String :=
  let (head, name) := directoryAndName path
  match markedStem? name marker.toList with
  | some (stem, extension) =>
    String.ofList (head ++ dropMarker marker.toList stem ++ ('.' :: extension))
  | none => String.ofList (head ++ name)

end ConventionLint
