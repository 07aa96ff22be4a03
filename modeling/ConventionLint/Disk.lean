import ConventionLint.Path
import ConventionLint.Text.Utf8

/-! Files, directories and links as a value. -/
namespace ConventionLint

open Text

inductive Entry where
  | file (bytes : List UInt8)
  | directory
deriving DecidableEq

namespace Entry

def isFile : Entry → Bool
  | file _ => true
  | directory => false

def isDirectory : Entry → Bool
  | file _ => false
  | directory => true

end Entry

/-- What there is, by the components from the root on, and the directory relative paths start from. -/
structure Volume where
  entries : List (List String × Entry) := []
  links : Links := []
  /-- The files that must not be read. -/
  locked : List (List String) := []
  workingDirectory : Path := ⟨.root, []⟩

theorem Volume.links_empty : ({} : Volume).links = [] := rfl

theorem Volume.locked_empty : ({} : Volume).locked = [] := rfl

/-- A volume of directories and files only, all of which may be read. -/
structure Disk extends Volume where
  links_eq_nil : links = [] := by exact Volume.links_empty
  locked_eq_nil : locked = [] := by exact Volume.locked_empty

attribute [simp] Disk.links_eq_nil Disk.locked_eq_nil

instance : Coe Disk Volume := ⟨Disk.toVolume⟩

/-- Why a file cannot be read. -/
inductive FileError where
  | missing (path : String)
  | isDirectory (path : String)
  | notDirectory (path : String)
  | nameTooLong (path : String)
  | denied (path : String)
  | invalidPath
deriving DecidableEq

def FileError.message : FileError → String
  | missing path => "[Errno 2] No such file or directory: " ++ quoted path
  | isDirectory path => "[Errno 21] Is a directory: " ++ quoted path
  | notDirectory path => "[Errno 20] Not a directory: " ++ quoted path
  | nameTooLong path => "[Errno 36] File name too long: " ++ quoted path
  | denied path => "[Errno 13] Permission denied: " ++ quoted path
  | invalidPath => "embedded null byte"

/-- Whether there is just nothing where a path leads. -/
def FileError.isAbsence : FileError → Bool
  | missing _ => true
  | notDirectory _ => true
  | invalidPath => true
  | isDirectory _ => false
  | nameTooLong _ => false
  | denied _ => false

/-- The longest name of an entry, in bytes. -/
def nameLimit : Nat := 255

/-- A name that no entry can have; to ask for it is an error. -/
def isTooLong (name : String) : Bool := decide (nameLimit < name.utf8ByteSize)

/-- Why the text of a file cannot be had. -/
inductive ReadError where
  | file (e : FileError)
  | decode (e : DecodeError)
deriving DecidableEq

def ReadError.message : ReadError → String
  | file e => e.message
  | decode e => e.message

namespace Volume

variable (d : Volume)

def get? (parts : List String) : Option Entry :=
  if parts = [] then some .directory else d.entries.lookup parts

/-- The place that a path leads to, as far as the path can be told without asking for it. -/
def resolve (p : Path) : List String := Path.resolve d.workingDirectory p d.links

/-- A path from the root on that leads through no link. -/
def absolute (p : Path) : Path := ⟨.root, d.resolve p⟩

/-- The place that a path leads to from a place, one component at a time. -/
def walkFrom (text : String) (here : List String) : List String → Except FileError (List String)
  | [] => .ok here
  | part :: r =>
    match d.get? here with
    | none => .error (.missing text)
    | some (.file _) => .error (.notDirectory text)
    | some .directory =>
      if isTooLong part then .error (.nameTooLong text)
      else walkFrom text (Path.step d.links here part) r

/-- What a path leads to. -/
def find (p : Path) : Except FileError Entry := do
  if !p.isValid then .error .invalidPath
  let place ← d.walkFrom p.toString [] (d.workingDirectory.join p).parts
  match d.get? place with
  | none => .error (.missing p.toString)
  | some e => .ok e

/-- Whether a path leads to an entry of a kind. -/
def leadsTo (kind : Entry → Bool) (p : Path) : Except FileError Bool :=
  match d.find p with
  | .ok e => .ok (kind e)
  | .error e => if e.isAbsence then .ok false else .error e

def isFile (p : Path) : Except FileError Bool := d.leadsTo Entry.isFile p

def isDirectory (p : Path) : Except FileError Bool := d.leadsTo Entry.isDirectory p

def readBytes (p : Path) : Except FileError (List UInt8) := do
  match ← d.find p with
  | .file bytes => if d.locked.contains (d.resolve p) then .error (.denied p.toString) else .ok bytes
  | .directory => .error (.isDirectory p.toString)

/-- The text of a file, with line feeds for all its line ends. -/
def readText (p : Path) : Except ReadError String :=
  match d.readBytes p with
  | .error e => .error (.file e)
  | .ok bytes =>
    match decode bytes with
    | .error e => .error (.decode e)
    | .ok cs => .ok (String.ofList (unifyLines cs))

/-- The error of a file that is read as a stream: bytes that are cut off at its end are counted from
the first of them. -/
def streamError (e : DecodeError) : DecodeError :=
  if e.reason = .ended then { e with first := 0, last := e.last - e.first } else e

/-- The text of a file that is read as a stream. -/
def readStream (p : Path) : Except ReadError String :=
  match d.readText p with
  | .error (.decode e) => .error (.decode (streamError e))
  | r => r

/-- The text of a file, none if there is no such file. -/
def readText? (p : Path) : Except ReadError (Option String) :=
  match d.readText p with
  | .error (.file (.missing _)) => .ok none
  | .error e => .error e
  | .ok text => .ok (some text)

/-- The files that lie below a directory, by their components from that directory on. -/
def storedBelow (directory : List String) : List (List String) :=
  d.entries.filterMap fun e =>
    match e.2 with
    | .file _ => (Path.below? directory e.1).filter (· ≠ [])
    | .directory => none

/-- The links below a directory that lead to files. -/
def linkedBelow (directory : List String) : List (List String) :=
  d.links.filterMap fun l =>
    match d.get? l.2 with
    | some (.file _) => (Path.below? directory l.1).filter (· ≠ [])
    | _ => none

/-- The files below a directory, those that links lead to among them, in order. -/
def filesBelow (directory : List String) : List (List String) :=
  (d.storedBelow directory ++ d.linkedBelow directory).mergeSort Path.le

/-- All directories that the last component of a path lies in, the outermost first. -/
def ancestors : List String → List (List String)
  | [] => []
  | [_] => []
  | part :: r => [part] :: (ancestors r).map (part :: ·)

/-- Puts an entry in place of what was there, and makes the directories it needs. -/
def write (parts : List String) (e : Entry) : Volume :=
  let missing := (ancestors parts).filter fun a => (d.get? a).isNone
  { d with
    entries := d.entries.filter (fun x => x.1 ≠ parts) ++ missing.map (·, .directory) ++ [(parts, e)]
    links := d.links.filter fun l => l.1 ≠ parts }

/-- Takes away an entry and all below it. -/
def remove (parts : List String) : Volume :=
  { d with
    entries := d.entries.filter fun x => (Path.below? parts x.1).isNone
    links := d.links.filter fun l => (Path.below? parts l.1).isNone }

end Volume

end ConventionLint
