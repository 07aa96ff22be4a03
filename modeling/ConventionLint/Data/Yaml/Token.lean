import ConventionLint.Data.Yaml.Scalar
import ConventionLint.Text.Utf8

/-! Tokens of YAML texts. Blocks, which are marked by indentation only, get tokens for their start
and their end. -/
namespace ConventionLint.Data.Yaml

inductive Token where
  | version (major : Nat)
  | tagDirective (handle start : String)
  | directive
  | documentStart
  | documentEnd
  | blockSequenceStart
  | blockMappingStart
  | blockEnd
  | flowSequenceStart
  | flowSequenceEnd
  | flowMappingStart
  | flowMappingEnd
  | flowEntry
  | blockEntry
  | key
  | value
  | reference (name : String)
  | anchor (name : String)
  | tag (handle : Option String) (suffix : String)
  | scalar (plain : Bool) (text : String)
deriving DecidableEq

/-- A place where a key may have started that has no sign of its own. -/
structure KeyStart where
  /-- The number of tokens before it. -/
  number : Nat
  /-- Whether nothing but a key can stand there. -/
  required : Bool
  place : Cursor

structure Scanner where
  cursor : Cursor
  tokens : Array Token := #[]
  /-- The column of the innermost block, -1 outside all blocks, then those around it. -/
  indent : Int := -1
  outer : List Int := []
  /-- Where a key may have started, for each open flow collection and for the blocks around. -/
  keys : List (Option KeyStart) := [none]
  /-- Whether a key may start here. -/
  keyAllowed : Bool := true

namespace Scanner

def inFlow (s : Scanner) : Bool := s.keys.length > 1

def emit (s : Scanner) (t : Token) : Scanner := { s with tokens := s.tokens.push t }

def advance (s : Scanner) (n : Nat) : Scanner := { s with cursor := s.cursor.skip n }

/-- Gives up the key that may have started in the innermost collection. -/
def dropKey (s : Scanner) : Option Scanner :=
  match s.keys with
  | some k :: r => if k.required then none else some { s with keys := none :: r }
  | _ => some s

/-- Remembers that a key may start here. -/
def startKey (s : Scanner) : Option Scanner :=
  if s.keyAllowed then do
    let s ← s.dropKey
    let k : KeyStart :=
      { number := s.tokens.size
        required := !s.inFlow && s.indent = s.cursor.column
        place := s.cursor }
    return { s with keys := some k :: s.keys.tail }
  else some s

/-- Gives up keys that are too far back: they end on their line and within 1024 characters. -/
def dropOldKeys (s : Scanner) : Option Scanner := do
  let keys ← s.keys.mapM fun k =>
    match k with
    | none => some none
    | some k =>
      if k.place.line ≠ s.cursor.line || s.cursor.index - k.place.index > 1024 then
        if k.required then none else some none
      else some (some k)
  return { s with keys }

/-- Ends the blocks that start right of a column. -/
def unwindFrom (column : Int) : Nat → Scanner → Scanner
  | 0, s => s
  | fuel + 1, s =>
    if s.indent > column then
      unwindFrom column fuel
        { s.emit .blockEnd with indent := s.outer.headD (-1), outer := s.outer.tail }
    else s

def unwind (s : Scanner) (column : Int) : Scanner :=
  if s.inFlow then s else unwindFrom column (s.outer.length + 1) s

/-- Starts a block at a column if it is right of the innermost one. -/
def openBlock (s : Scanner) (column : Nat) : Option Scanner :=
  if s.indent < column then some { s with indent := column, outer := s.indent :: s.outer } else none

/-- Starts a block here if needed. -/
def openHere (s : Scanner) (t : Token) : Scanner :=
  ((s.openBlock s.cursor.column).map (·.emit t)).getD s

/-- Skips spaces, comments and line ends; outside of flow collections a key may follow these. -/
def skipGapsFrom : Nat → Scanner → Scanner
  | 0, s => s
  | fuel + 1, s =>
    let c := s.cursor.skipSpaces
    let c := if c.peek = '#' then c.skipLine else c
    if isBreak c.peek then
      skipGapsFrom fuel { s with cursor := c.next, keyAllowed := s.keyAllowed || !s.inFlow }
    else { s with cursor := c }

def skipGaps (s : Scanner) : Scanner :=
  let s := if s.cursor.index = 0 && s.cursor.peek = '\ufeff' then s.advance 1 else s
  skipGapsFrom (s.cursor.rest.length + 1) s

def isNameChar (c : Char) : Bool := c.isAlphanum || c = '-' || c = '_'

def isUriChar (c : Char) : Bool :=
  c.isAlphanum || "-;/?:@&=+$,_.!~*'()[]".toList.contains c

/-- Bytes written by their codes. -/
def percentBytes : List Char → Option (List UInt8 × List Char)
  | '%' :: a :: b :: r => do
    let n := (← Json.hexValue? a) * 16 + (← Json.hexValue? b)
    let (bs, r) ← percentBytes r
    return (UInt8.ofNat n :: bs, r)
  | '%' :: _ => none
  | r => some ([], r)

def uriFrom : Nat → List Char → Option (List Char × List Char)
  | 0, _ => none
  | fuel + 1, cs =>
    match cs with
    | '%' :: _ => do
      let (bs, r) ← percentBytes cs
      let chars ← (Text.decode bs).toOption
      let (more, r) ← uriFrom fuel r
      return (chars ++ more, r)
    | c :: r =>
      if isUriChar c then (uriFrom fuel r).map fun (more, r) => (c :: more, r) else some ([], c :: r)
    | [] => some ([], [])

/-- A non-empty part of a tag. -/
def uri? (cs : List Char) : Option (String × List Char) := do
  let (chars, r) ← uriFrom (cs.length + 1) cs
  if chars.isEmpty then none else some (String.ofList chars, r)

/-- A handle: an exclamation mark before a space, or a name between two. -/
def handle? : List Char → Option (String × List Char)
  | '!' :: r =>
    if r.head? = some ' ' then some ("!", r)
    else
      let name := r.takeWhile isNameChar
      match r.dropWhile isNameChar with
      | '!' :: rest => some (String.ofList ('!' :: name ++ ['!']), rest)
      | _ => none
  | _ => none

def gapFollows (p : Char → Bool) (cs : List Char) : Bool := p (cs.headD endMark)

/-- A tag in full, the mark that forbids one, or a handle with a suffix. -/
def tag? (cs : List Char) : Option (Token × List Char) := do
  let (t, r) ← match cs with
    | '!' :: '<' :: r => do
      let (s, r) ← uri? r
      match r with
      | '>' :: r => some (Token.tag none s, r)
      | _ => none
    | '!' :: r =>
      if gapFollows isGap r then some (Token.tag none "!", r)
      else if (r.takeWhile fun c => !isSpaceOrEnd c).contains '!' then do
        let (h, r) ← handle? ('!' :: r)
        let (s, r) ← uri? r
        return (Token.tag (some h) s, r)
      else do
        let (s, r) ← uri? r
        return (Token.tag (some "!") s, r)
    | _ => none
  if gapFollows isSpaceOrEnd r then some (t, r) else none

/-- The name behind the sign of an anchor or an alias. -/
def name? (cs : List Char) : Option (String × List Char) :=
  let name := cs.takeWhile isNameChar
  let r := cs.dropWhile isNameChar
  if !name.isEmpty && gapFollows (fun c => isGap c || "?:,]\x7d%@`".toList.contains c) r then
    some (String.ofList name, r)
  else none

def dropSpaces (cs : List Char) : List Char := cs.dropWhile (· = ' ')

def number? (cs : List Char) : Option (Nat × List Char) :=
  (Json.digits? cs).map fun (ds, r) => (Json.digitsValue ds, r)

/-- A directive behind its percent sign, without the rest of its line. -/
def directive? (cs : List Char) : Option (Token × List Char) := do
  let name := cs.takeWhile isNameChar
  let r := cs.dropWhile isNameChar
  if name.isEmpty || !gapFollows isSpaceOrEnd r then none
  else if name = "YAML".toList then
    let (major, r) ← number? (dropSpaces r)
    match r with
    | '.' :: r =>
      let (_, r) ← number? r
      if gapFollows isSpaceOrEnd r then some (.version major, r) else none
    | _ => none
  else if name = "TAG".toList then
    let (h, r) ← handle? (dropSpaces r)
    if r.head? ≠ some ' ' then none
    else
      let (u, r) ← uri? (dropSpaces r)
      if gapFollows isSpaceOrEnd r then some (.tagDirective h u, r) else none
  else some (.directive, r.dropWhile fun c => !isBreak c)

/-- A token after which no key may start. -/
def close (s : Scanner) (t : Token) (n : Nat) : Scanner :=
  { (s.advance n).emit t with keyAllowed := false }

/-- A token that may start a key. -/
def node (s : Scanner) (t : Token) (rest : List Char) : Option Scanner := do
  let s ← s.startKey
  return { s.emit t with cursor := s.cursor.jump rest, keyAllowed := false }

/-- Marks that end all blocks. -/
def outermost (s : Scanner) : Option Scanner := (s.unwind (-1)).dropKey

def openFlow (s : Scanner) (t : Token) : Option Scanner := do
  let s ← s.startKey
  return { (s.advance 1).emit t with keys := none :: s.keys, keyAllowed := true }

def closeFlow (s : Scanner) (t : Token) : Option Scanner := do
  let s ← s.dropKey
  if s.inFlow then return { s.close t 1 with keys := s.keys.tail } else none

def entry (s : Scanner) : Option Scanner := do
  let s ← { s with keyAllowed := true }.dropKey
  return (s.advance 1).emit .flowEntry

def blockEntry (s : Scanner) : Option Scanner := do
  if !s.inFlow && !s.keyAllowed then none
  else
    let s := if s.inFlow then s else s.openHere .blockSequenceStart
    let s ← { s with keyAllowed := true }.dropKey
    return (s.advance 1).emit .blockEntry

def explicitKey (s : Scanner) : Option Scanner := do
  if !s.inFlow && !s.keyAllowed then none
  else
    let s := if s.inFlow then s else s.openHere .blockMappingStart
    let s ← { s with keyAllowed := !s.inFlow }.dropKey
    return (s.advance 1).emit .key

/-- A value; the key before it is told only now, and with it the start of its block. -/
def value (s : Scanner) : Option Scanner := do
  match s.keys with
  | some k :: r =>
    let opened := if s.inFlow then none else s.openBlock k.place.column
    let marks := if opened.isSome then [Token.blockMappingStart, .key] else [.key]
    let s := opened.getD s
    let tokens := (s.tokens.toList.take k.number ++ marks ++ s.tokens.toList.drop k.number).toArray
    return { s with tokens, keys := none :: r }.close .value 1
  | _ =>
    if !s.inFlow && !s.keyAllowed then none
    else
      let s := if s.inFlow then s else s.openHere .blockMappingStart
      let s ← { s with keyAllowed := !s.inFlow }.dropKey
      return (s.advance 1).emit .value

def blockScalar (s : Scanner) (folded : Bool) : Option Scanner := do
  let s ← { s with keyAllowed := true }.dropKey
  let (text, cursor) ← blockText folded s.indent s.cursor.next
  return { s.emit (.scalar false (String.ofList text)) with cursor }

def quoted (s : Scanner) (double : Bool) : Option Scanner := do
  let rest := s.cursor.rest.tail
  let (text, r) ← quotedText double (rest.length + 1) rest
  s.node (.scalar false (String.ofList text)) r

def plain (s : Scanner) : Option Scanner := do
  let s ← s.startKey
  let (text, keyAllowed, cursor) :=
    plainText s.inFlow (s.indent + 1) (s.cursor.rest.length + 1) [] false s.cursor
  return { s.emit (.scalar true (String.ofList text)) with cursor, keyAllowed }

/-- Whether a plain scalar starts here. -/
def startsPlain (s : Scanner) : Bool :=
  let c := s.cursor.peek
  !(isGap c || "-?:,[]\x7b\x7d#&*!|>'\"%@`".toList.contains c)
    || (!isGap (s.cursor.peek 1) && (c = '-' || (!s.inFlow && (c = '?' || c = ':'))))

/-- The next token, at the place where it starts. -/
def token (s : Scanner) : Option Scanner := do
  let c := s.cursor.peek
  let gapNext := isGap (s.cursor.peek 1)
  let atLineStart := s.cursor.column = 0
  if c = '%' && atLineStart then
    let s ← s.outermost
    let (t, r) ← directive? s.cursor.rest.tail
    let cursor ← emptyLine (s.cursor.jump r)
    return { s.emit t with cursor, keyAllowed := false }
  else if atLineStart && isSeparator s.cursor.rest then
    let s ← s.outermost
    return s.close (if c = '-' then .documentStart else .documentEnd) 3
  else if c = '[' then s.openFlow .flowSequenceStart
  else if c = '{' then s.openFlow .flowMappingStart
  else if c = ']' then s.closeFlow .flowSequenceEnd
  else if c = '}' then s.closeFlow .flowMappingEnd
  else if c = ',' then s.entry
  else if c = '-' && gapNext then s.blockEntry
  else if c = '?' && (s.inFlow || gapNext) then s.explicitKey
  else if c = ':' && (s.inFlow || gapNext) then s.value
  else if c = '*' then
    let (n, r) ← name? s.cursor.rest.tail
    s.node (.reference n) r
  else if c = '&' then
    let (n, r) ← name? s.cursor.rest.tail
    s.node (.anchor n) r
  else if c = '!' then
    let (t, r) ← tag? s.cursor.rest
    s.node t r
  else if c = '|' && !s.inFlow then s.blockScalar false
  else if c = '>' && !s.inFlow then s.blockScalar true
  else if c = '\'' then s.quoted false
  else if c = '"' then s.quoted true
  else if s.startsPlain then s.plain
  else none

/-- All tokens up to the end of the text. -/
def run : Nat → Scanner → Option (List Token)
  | 0, _ => none
  | fuel + 1, s => do
    let s ← s.skipGaps.dropOldKeys
    let s := s.unwind s.cursor.column
    if s.cursor.rest.isEmpty then
      let s ← s.outermost
      return s.tokens.toList
    else run fuel (← s.token)

end Scanner

/-- The tokens of a text, none if it has a fault. -/
def tokens? (text : List Char) : Option (List Token) :=
  if text.all isAllowed then Scanner.run (text.length + 1) { cursor := { rest := text } } else none

end ConventionLint.Data.Yaml
