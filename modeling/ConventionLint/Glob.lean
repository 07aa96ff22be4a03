import ConventionLint.Disk

/-! File name patterns: `*` for any text, `?` for any character, brackets for sets of them. -/
namespace ConventionLint.Glob

/-- Characters from the first to the last one. -/
structure Range where
  first : Char
  last : Char

inductive Piece where
  | char (c : Char)
  | one
  | any
  | set (negated : Bool) (ranges : List Range)

/-- The ranges between the brackets of a set. A hyphen needs a character on both sides. -/
def ranges : List Char → List Range
  | a :: '-' :: b :: r => ⟨a, b⟩ :: ranges r
  | a :: r => ⟨a, a⟩ :: ranges r
  | [] => []

/-- The inside of a set behind its opening bracket, and what follows its closing one. A closing
bracket at the front, also behind a negation, does not close it. -/
def inside? (cs : List Char) : Option (List Char × List Char) :=
  let (front, r) := match cs with
    | '!' :: ']' :: r => (['!', ']'], r)
    | '!' :: r => (['!'], r)
    | ']' :: r => ([']'], r)
    | r => ([], r)
  match r.dropWhile (· ≠ ']') with
  | [] => none
  | _ :: rest => some (front ++ r.takeWhile (· ≠ ']'), rest)

def setOf : List Char → Piece
  | '!' :: r => .set true (ranges r)
  | cs => .set false (ranges cs)

/-- The pieces of a pattern; the first argument counts characters of a set still to pass. -/
def piecesFrom : Nat → List Char → List Piece
  | _, [] => []
  | n + 1, _ :: r => piecesFrom n r
  | 0, c :: r =>
    if c = '*' then .any :: piecesFrom 0 r
    else if c = '?' then .one :: piecesFrom 0 r
    else if c = '[' then
      match inside? r with
      | some (cs, _) => setOf cs :: piecesFrom (cs.length + 1) r
      | none => .char c :: piecesFrom 0 r
    else .char c :: piecesFrom 0 r

def pieces (pattern : String) : List Piece := piecesFrom 0 pattern.toList

def Piece.holds (c : Char) : Piece → Bool
  | .char x => c = x
  | .one => true
  | .any => true
  | .set negated ranges => negated != ranges.any fun r => r.first ≤ c && c ≤ r.last

/-- All ends of a text, itself included. -/
def ends : List Char → List (List Char)
  | [] => [[]]
  | c :: r => (c :: r) :: ends r

def fits : List Piece → List Char → Bool
  | [], cs => cs.isEmpty
  | .any :: ps, cs => (ends cs).any (fits ps)
  | _ :: _, [] => false
  | p :: ps, c :: r => p.holds c && fits ps r

/-- Why a text is no pattern for paths below a directory. -/
inductive PatternError where
  | absolute
  | stars
deriving DecidableEq

def PatternError.message : PatternError → String
  | absolute => "Non-relative patterns are unsupported"
  | stars => "Invalid pattern: '**' can only be an entire path component"

/-- One component of a pattern. -/
inductive Step where
  /-- Any number of directories. -/
  | deep
  | up
  | name (s : String)
  | fit (ps : List Piece)

def isPattern (s : String) : Bool := s.toList.any fun c => c = '*' || c = '?' || c = '['

def step (s : String) : Except PatternError Step :=
  if s = "**" then .ok .deep
  else if s = ".." then .ok .up
  else if Text.contains ['*', '*'] s.toList then .error .stars
  else if isPattern s then .ok (.fit (pieces s))
  else .ok (.name s)

/-- The components of a pattern that may match at any depth. -/
def steps (pattern : String) : Except PatternError (List Step) := do
  let p := Path.parse pattern
  if p.isAbsolute then .error .absolute
  else return .deep :: (← p.parts.mapM step)

/-- Why a search gives no files. -/
inductive SearchError where
  | pattern (e : PatternError)
  /-- The path that was asked for, by its components from the directory on. -/
  | nameTooLong (path : List String)
deriving DecidableEq

/-- A place that was reached, by the components to it and by where it is. -/
structure Found where
  path : List String
  place : List String

variable (d : Volume)

/-- What is directly in a directory, by name. -/
def children (place : List String) : List (String × Entry) :=
  d.entries.filterMap fun e =>
    match Path.below? place e.1 with
    | some [name] => some (name, e.2)
    | _ => none

/-- What the links in a directory lead to, by the names of the links. -/
def linkedChildren (place : List String) : List (String × Entry) :=
  d.links.filterMap fun l =>
    match Path.below? place l.1, d.get? l.2 with
    | some [name], some e => some (name, e)
    | _, _ => none

/-- A directory and all directories below it; links are not followed. -/
def directories (f : Found) : List Found :=
  f :: d.entries.filterMap fun e =>
    match e.2, Path.below? f.place e.1 with
    | .directory, some (p :: ps) => some ⟨f.path ++ p :: ps, e.1⟩
    | _, _ => none

/-- What one component leads to. If more follow, only directories count. -/
def advance (last : Bool) (f : Found) : Step → List Found
  | .deep => directories d f
  | .up => [⟨f.path ++ [".."], f.place.dropLast⟩]
  | .name s =>
    let place := Path.land d.links (f.place ++ [s])
    match d.get? place with
    | some .directory => [⟨f.path ++ [s], place⟩]
    | some (.file _) => if last then [⟨f.path ++ [s], place⟩] else []
    | none => []
  | .fit ps =>
    (children d f.place ++ linkedChildren d f.place).filterMap fun (name, e) =>
      if fits ps name.toList && (last || e = .directory) then
        some ⟨f.path ++ [name], Path.land d.links (f.place ++ [name])⟩
      else none

def select : List Step → List Found → List Found
  | [], fs => fs
  | s :: r, fs => select r (fs.flatMap fun f => advance d r.isEmpty f s)

/-- The path that a component asks for from a place, if its name is too long. -/
def Step.overlong? (f : Found) : Step → Option (List String)
  | .name s => if isTooLong s then some (f.path ++ [s]) else none
  | _ => none

/-- The first path with a name that is too long among those that are asked for on the way. -/
def overlong? : List Step → List Found → Option (List String)
  | [], _ => none
  | s :: r, fs =>
    match fs.findSome? s.overlong? with
    | some path => some path
    | none => overlong? r (fs.flatMap fun f => advance d r.isEmpty f s)

/-- The files that components lead to from a directory, by the components to them, in order. -/
def filesAlong (ss : List Step) (directory : List String) : List (List String) :=
  let found := (select d ss [⟨[], directory⟩]).filter fun f => (d.get? f.place).any Entry.isFile
  ((found.map (·.path)).mergeSort Path.le).eraseDups

/-- The files below a directory that a pattern matches at any depth. -/
def files (directory : List String) (pattern : String) : Except SearchError (List (List String)) :=
  match steps pattern with
  | .error e => .error (.pattern e)
  | .ok ss =>
    match overlong? d ss [⟨[], directory⟩] with
    | some path => .error (.nameTooLong path)
    | none => .ok (filesAlong d ss directory)

end ConventionLint.Glob
