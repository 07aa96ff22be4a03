import ConventionLint.Data.Json.Reader
import ConventionLint.Data.Yaml.Cursor

/-! The texts of YAML scalars: quoted, plain and block. -/
namespace ConventionLint.Data.Yaml

/-- Line ends at the front of a text and the blanks between them. No document may end there. -/
def flowBreaks : Nat → List Char → Option (List Char × List Char)
  | 0, _ => none
  | fuel + 1, cs =>
    if isSeparator cs then none
    else match cs.dropWhile (fun c => c = ' ' || c = '\t') with
      | c :: r =>
        if isBreak c then (flowBreaks fuel r).map fun (bs, r) => (breakValue c :: bs, r)
        else some ([], c :: r)
      | [] => some ([], [])

/-- The character that an escape of one letter stands for. -/
def escapeValue? (c : Char) : Option Char :=
  [('0', '\x00'), ('a', '\x07'), ('b', '\x08'), ('t', '\t'), ('\t', '\t'), ('n', '\n'),
   ('v', '\x0b'), ('f', '\x0c'), ('r', '\r'), ('e', '\x1b'), (' ', ' '), ('"', '"'), ('\\', '\\'),
   ('/', '/'), ('N', '\u0085'), ('_', '\u00a0'), ('L', '\u2028'), ('P', '\u2029')].lookup c

/-- The number of digits that follow an escape by code. -/
def escapeWidth? (c : Char) : Option Nat := [('x', 2), ('u', 4), ('U', 8)].lookup c

def hexNumber? (cs : List Char) : Option Nat :=
  cs.foldlM (fun n c => (Json.hexValue? c).map (n * 16 + ·)) 0

/-- The text of a quoted scalar behind its opening quote, and what follows its closing one. -/
def quotedText (double : Bool) : Nat → List Char → Option (List Char × List Char)
  | 0, _ => none
  | _ + 1, [] => none
  | fuel + 1, c :: r =>
    let go (chunk rest : List Char) :=
      (quotedText double fuel rest).map fun (s, rest) => (chunk ++ s, rest)
    if c = '"' && double then some ([], r)
    else if c = '\'' && !double then
      match r with
      | '\'' :: r => go ['\''] r
      | _ => some ([], r)
    else if c = '\\' && double then
      match r with
      | [] => none
      | e :: r =>
        match escapeValue? e, escapeWidth? e with
        | some x, _ => go [x] r
        | none, some width => do
          if r.length < width then none
          else
            let n ← hexNumber? (r.take width)
            if n.isValidChar then go [Char.ofNat n] (r.drop width) else none
        | none, none =>
          if isBreak e then do
            let (bs, r) ← flowBreaks (r.length + 1) r
            go bs r
          else none
    else if c = ' ' || c = '\t' || isBreak c then
      let blanks := (c :: r).takeWhile fun x => x = ' ' || x = '\t'
      match (c :: r).dropWhile fun x => x = ' ' || x = '\t' with
      | [] => none
      | x :: r =>
        if isBreak x then do
          let (bs, r) ← flowBreaks (r.length + 1) r
          go (foldBreaks x bs) r
        else go blanks (x :: r)
    else go [c] r

/-- The length of a plain word. A colon ends it before a gap, and in flow context before a bracket
too. -/
def plainLength (flow : Bool) : List Char → Nat
  | [] => 0
  | c :: r =>
    let after := r.headD endMark
    if isGap c || (c = ':' && (isGap after || (flow && ",[]\x7b\x7d".toList.contains after)))
      || (flow && ",?[]\x7b\x7d".toList.contains c) then 0
    else 1 + plainLength flow r

/-- Line ends between the lines of a plain scalar, none if a document ends there. -/
def plainBreaks : Nat → List Char → Option (List Char) × List Char
  | 0, cs => (none, cs)
  | fuel + 1, cs =>
    if isSeparator cs then (none, cs)
    else match cs.dropWhile (· = ' ') with
      | c :: r =>
        if isBreak c then
          let (bs, r) := plainBreaks fuel r
          (bs.map (breakValue c :: ·), r)
        else (some [], c :: r)
      | [] => (some [], [])

/-- What stands between two words of a plain scalar, and whether a line ends in it. Nothing stands
there if the scalar ends. -/
def plainSpaces (cs : List Char) : List Char × Bool × List Char :=
  let spaces := cs.takeWhile (· = ' ')
  match cs.dropWhile (· = ' ') with
  | c :: r =>
    if isBreak c then
      let (bs, r) := plainBreaks (r.length + 1) r
      ((bs.map (foldBreaks c)).getD [], true, r)
    else (spaces, false, c :: r)
  | [] => (spaces, false, [])

/-- The text of a plain scalar that starts with `spaces`, where it ends, and whether a line ended
behind its last word. -/
def plainText (flow : Bool) (indent : Int) :
    Nat → (spaces : List Char) → Bool → Cursor → List Char × Bool × Cursor
  | 0, _, ended, c => ([], ended, c)
  | fuel + 1, spaces, ended, c =>
    let n := plainLength flow c.rest
    if c.peek = '#' || n = 0 then ([], ended, c)
    else
      let word := c.rest.take n
      let c := c.skip n
      let (between, ended, r) := plainSpaces c.rest
      let c := c.jump r
      if between.isEmpty || c.peek = '#' || (!flow && c.column < indent) then
        (spaces ++ word, ended, c)
      else
        let (more, ended, c) := plainText flow indent fuel between ended c
        (spaces ++ word ++ more, ended, c)

/-- What becomes of the line ends behind a block scalar. -/
inductive Chomping where
  | strip
  | clip
  | keep
deriving DecidableEq

/-- The marks behind the sign of a block scalar. -/
def blockHeader (cs : List Char) : Option (Chomping × Option Nat × List Char) :=
  let chomp (c : Char) : Option Chomping :=
    if c = '+' then some .keep else if c = '-' then some .strip else none
  let level (c : Char) : Option Nat := if c.isDigit then some (c.toNat - '0'.toNat) else none
  let (chomping, increment, r) := match cs with
    | [] => (none, none, [])
    | c :: r =>
      match chomp c, level c with
      | some m, _ =>
        match r.head?.bind level with
        | some n => (some m, some n, r.tail)
        | none => (some m, none, r)
      | none, some n =>
        match r.head?.bind chomp with
        | some m => (some m, some n, r.tail)
        | none => (none, some n, r)
      | none, none => (none, none, c :: r)
  if increment = some 0 || !isSpaceOrEnd (r.headD endMark) then none
  else some (chomping.getD .clip, increment, r)

/-- The rest of a line that may only hold a comment. -/
def emptyLine (c : Cursor) : Option Cursor :=
  let c := c.skipSpaces
  let c := if c.peek = '#' then c.skipLine else c
  if isEndOrBreak c.peek then some c.next else none

/-- Skips spaces up to a column. -/
def skipIndent (indent : Nat) : Nat → Cursor → Cursor
  | 0, c => c
  | fuel + 1, c => if c.column < indent && c.peek = ' ' then skipIndent indent fuel c.next else c

/-- Empty lines before a line of a block scalar. -/
def blockBreaks (indent : Nat) : Nat → Cursor → List Char × Cursor
  | 0, c => ([], c)
  | fuel + 1, c =>
    let c := skipIndent indent indent c
    if isBreak c.peek then
      let (bs, d) := blockBreaks indent fuel c.next
      (breakValue c.peek :: bs, d)
    else ([], c)

/-- Empty lines before a block scalar of unknown indentation, and the greatest column in them. -/
def blockIndent : Nat → Nat → Cursor → List Char × Nat × Cursor
  | 0, greatest, c => ([], greatest, c)
  | fuel + 1, greatest, c =>
    if c.peek = ' ' then blockIndent fuel (max greatest c.next.column) c.next
    else if isBreak c.peek then
      let (bs, g, d) := blockIndent fuel greatest c.next
      (breakValue c.peek :: bs, g, d)
    else ([], greatest, c)

/-- The lines of a block scalar behind the line ends `breaks`; the last ones are chomped. -/
def blockLines (folded : Bool) (chomping : Chomping) (indent : Nat) :
    Nat → (last breaks : List Char) → Cursor → List Char × Cursor
  | 0, _, _, c => ([], c)
  | fuel + 1, last, breaks, c =>
    if c.column = indent && c.peek ≠ endMark then
      let startsBlank (c : Cursor) := c.peek = ' ' || c.peek = '\t'
      let line := c.rest.takeWhile fun x => !isBreak x
      let d := c.skip line.length
      let ending := if isBreak d.peek then [breakValue d.peek] else []
      let (bs, e) := blockBreaks indent (d.rest.length + 1) d.next
      let joint :=
        if !(e.column = indent && e.peek ≠ endMark) then []
        else if folded && ending = ['\n'] && !startsBlank c && !startsBlank e then
          if bs.isEmpty then [' '] else []
        else ending
      let (more, f) := blockLines folded chomping indent fuel ending bs e
      (breaks ++ line ++ joint ++ more, f)
    else
      let tail := if chomping = .strip then [] else last
      (tail ++ (if chomping = .keep then breaks else []), c)

/-- The text of a block scalar behind its sign, given the indentation around it. -/
def blockText (folded : Bool) (outer : Int) (c : Cursor) : Option (List Char × Cursor) := do
  let (chomping, increment, r) ← blockHeader c.rest
  let c ← emptyLine (c.jump r)
  let least := (max (outer + 1) 1).toNat
  let fuel := c.rest.length + 1
  let (indent, breaks, c) := match increment with
    | some n =>
      let indent := least + n - 1
      let (bs, c) := blockBreaks indent fuel c
      (indent, bs, c)
    | none =>
      let (bs, greatest, c) := blockIndent fuel 0 c
      (max least greatest, bs, c)
  return blockLines folded chomping indent fuel [] breaks c

end ConventionLint.Data.Yaml
