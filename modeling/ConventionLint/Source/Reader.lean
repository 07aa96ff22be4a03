import ConventionLint.Source.Lexeme
import ConventionLint.Source.Tree

/-! Readers: functions that take characters off the front of a text and collect the nodes they find.
A reader that fails leaves the state as it was. -/
namespace ConventionLint.Source

/-- What is left to read, where it starts, and the children found so far, newest first. -/
structure State where
  rest : List Char
  pos : Nat
  found : List Node

namespace State

def skip (s : State) (n : Nat) : State :=
  { s with rest := s.rest.drop n, pos := s.pos + n }

/-- The next `n` characters become a node. -/
def take (s : State) (k : Kind) (n : Nat) : State :=
  { rest := s.rest.drop n, pos := s.pos + n, found := .mk k none ⟨s.pos, s.pos + n⟩ [] :: s.found }

/-- The next `n` characters become a comment. -/
def takeComment (s : State) (n : Nat) : State :=
  { rest := s.rest.drop n, pos := s.pos + n, found := .comment ⟨s.pos, s.pos + n⟩ :: s.found }

/-- Passes over at most `n` runs of gaps and the comments between them. -/
def skipGapsUpTo : Nat → State → State
  | 0, s => s
  | n + 1, s =>
    let s := s.skip (s.rest.takeWhile isGap).length
    match commentLength s.rest with
    | 0 => s
    | k => skipGapsUpTo n (s.takeComment k)

/-- The state at the next token. Comments on the way are found as nodes. -/
def skipGaps (s : State) : State :=
  skipGapsUpTo (s.rest.length + 1) s

end State

def Reader (α : Type) := State → Option (α × State)

namespace Reader

instance : Monad Reader where
  pure a := fun s => some (a, s)
  bind p f := fun s => (p s).bind fun r => f r.1 r.2

instance : Alternative Reader where
  failure := fun _ => none
  orElse p q := fun s => (p s).or (q () s)

variable {α : Type}

/-- The characters from the next token on. -/
def ahead : Reader (List Char) := fun s => some (s.skipGaps.rest, s)

/-- The characters right after the last token, gaps included. -/
def here : Reader (List Char) := fun s => some (s.rest, s)

def aheadChar : Reader (Option Char) := do return (← ahead).head?

/-- The next token as a name, if it is one. -/
def aheadWord : Reader String := do
  let cs ← ahead
  return String.ofList (cs.take (nameLength cs))

/-- Whether `p` would succeed here. -/
def can (p : Reader α) : Reader Bool := fun s => some ((p s).isSome, s)

def maybe (p : Reader Unit) : Reader Unit := p <|> pure ()

/-- The kind of the newest node. -/
def newest : Reader Kind := fun s => s.found.head?.bind fun n => n.kind?.map fun k => (k, s)

def gaps : Reader Unit := fun s => some ((), s.skipGaps)

/-- The next `n` characters, with no gap before them, as a node; `n` is not 0. -/
def run (k : Kind) (n : Nat) : Reader Unit := fun s =>
  if n = 0 then none else some ((), s.take k n)

/-- The next `n` characters as a comment; `n` is not 0. -/
def comment (n : Nat) : Reader Unit := fun s =>
  if n = 0 then none else some ((), s.takeComment n)

/-- The text `t` with no gap before it. -/
def litHere (t : String) : Reader Unit := fun s =>
  if t.toList.isPrefixOf s.rest then some ((), s.take (.token t) t.length) else none

def lit (t : String) : Reader Unit := do gaps; litHere t

/-- The text `t` where none of `after` follows it. -/
def symbol (t : String) (after : List Char) : Reader Unit := do
  lit t
  guard (!((← here).head?.any after.contains))

/-- The name `w` as a token of its own. -/
def word (w : String) : Reader Unit := do
  guard ((← aheadWord) = w)
  lit w

/-- A name as a node. -/
def name (k : Kind) : Reader Unit := do
  gaps
  run k (nameLength (← here))

/-- A name that is none of `reserved`. -/
def nameExcept (k : Kind) (reserved : List String) : Reader Unit := do
  guard (!reserved.contains (← aheadWord))
  name k

def close (k : Kind) (start : Nat) (outer : List Node) (s : State) : State :=
  { s with found := .mk k none ⟨start, s.pos⟩ s.found.reverse :: outer }

/-- All that `p` finds becomes one node of the kind it answers. -/
def nodeOf (p : Reader Kind) : Reader Unit := fun s =>
  let s := s.skipGaps
  (p { s with found := [] }).map fun r => ((), close r.1 s.pos s.found r.2)

def node (k : Kind) (p : Reader Unit) : Reader Unit :=
  nodeOf do p; return k

/-- Like `nodeOf`, with the newest node as the first child. -/
def extendOf (p : Reader Kind) : Reader Unit := fun s =>
  match s.found with
  | [] => none
  | n :: outer => (p { s with found := [n] }).map fun r => ((), close r.1 n.span.start outer r.2)

def extend (k : Kind) (p : Reader Unit) : Reader Unit :=
  extendOf do p; return k

/-- Gives the newest node the part `r`. -/
def mark (r : Role) : Reader Unit := fun s =>
  match s.found with
  | [] => none
  | n :: ns => some ((), { s with found := n.withRole r :: ns })

def playing (r : Role) (p : Reader Unit) : Reader Unit := do p; mark r

/-- At most `n` times `p`, as long as it succeeds and moves on. -/
def manyUpTo : Nat → Reader Unit → Reader Unit
  | 0, _ => pure ()
  | n + 1, p => fun s =>
    match p s with
    | none => some ((), s)
    | some (_, t) => if t.pos = s.pos then some ((), s) else manyUpTo n p t

def many (p : Reader Unit) : Reader Unit := fun s =>
  manyUpTo s.rest.length p s

def oneOf : List (Reader Unit) → Reader Unit
  | [] => failure
  | p :: ps => p <|> oneOf ps

def words (ws : List String) : Reader Unit := oneOf (ws.map word)

def parens (p : Reader Unit) : Reader Unit := do lit "("; p; lit ")"

def brackets (p : Reader Unit) : Reader Unit := do lit "["; p; lit "]"

def braces (p : Reader Unit) : Reader Unit := do lit "\x7b"; p; lit "\x7d"

/-- One or more `p` with commas between them; a comma may also end them. -/
def listed (p : Reader Unit) : Reader Unit := do
  p
  many do lit ","; p
  maybe (lit ",")

/-- Any number of `p` with commas between them; places may be left empty. -/
def holed (p : Reader Unit) : Reader Unit := do
  maybe p
  many do lit ","; maybe p

end Reader

end ConventionLint.Source
