import ConventionLint.Data.Yaml.Token

/-! The tree of a YAML text that holds one document. -/
namespace ConventionLint.Data.Yaml

/-- A node with the tag that was written; none if it is to be told from the content. -/
inductive Node where
  | scalar (tag : Option String) (plain : Bool) (text : String)
  | sequence (tag : Option String) (items : List Node)
  | mapping (tag : Option String) (entries : List (Node × Node))

/-- What is left to read, the meaning of tag handles, and the nodes that have a name. A node that
is not complete has only its name. -/
structure Builder where
  tokens : List Token
  handles : List (String × String) := [("!", "!"), ("!!", "tag:yaml.org,2002:")]
  anchors : List (String × Option Node) := []

abbrev Build := StateT Builder Option

namespace Build

def peek? : Build (Option Token) := return (← get).tokens.head?

def pop : Build Unit := modify fun b => { b with tokens := b.tokens.tail }

/-- Takes the next token if it is the given one. -/
def take (t : Token) : Build Bool := do
  if (← peek?) = some t then
    pop
    return true
  else return false

def expect (t : Token) : Build Unit := do
  if !(← take t) then failure

/-- Whether one of the tokens is next, or none is left. -/
def ahead (ts : List Token) : Build Bool := do
  match ← peek? with
  | none => return true
  | some t => return ts.contains t

def empty : Node := .scalar none true ""

/-- Where a node stands: in a flow collection, in a block, or behind a key, where a sequence needs no
indentation. -/
inductive Site where
  | flow
  | block
  | member
deriving DecidableEq

def anchor? : Build (Option String) := do
  match ← peek? with
  | some (.anchor name) =>
    pop
    return some name
  | _ => return none

def tag? : Build (Option String) := do
  match ← peek? with
  | some (.tag handle suffix) =>
    pop
    match handle with
    | none => return some suffix
    | some h =>
      match (← get).handles.lookup h with
      | some start => return some (start ++ suffix)
      | none => failure
  | _ => return none

/-- Anchor and tag, in any order. -/
def properties : Build (Option String × Option String) := do
  match ← anchor? with
  | some a => return (some a, ← tag?)
  | none =>
    let t ← tag?
    if t.isSome then return (← anchor?, t) else return (none, none)

/-- Names are given once. -/
def declare (name : Option String) : Build Unit := do
  match name with
  | none => return
  | some n =>
    if ((← get).anchors.lookup n).isSome then failure
    else modify fun b => { b with anchors := (n, none) :: b.anchors }

def define (name : Option String) (node : Node) : Build Unit := do
  match name with
  | none => return
  | some n => modify fun b => { b with anchors := (n, some node) :: b.anchors }

variable (node : Site → Build Node)

/-- A node, an empty one if one of the tokens is next. -/
def nodeUnless (site : Site) (ts : List Token) : Build Node := do
  if ← ahead ts then return empty else node site

def blockItems : Nat → Build (List Node)
  | 0 => failure
  | fuel + 1 => do
    if ← take .blockEntry then
      let item ← nodeUnless node .block [.blockEntry, .blockEnd]
      return item :: (← blockItems fuel)
    else
      expect .blockEnd
      return []

/-- The items of a sequence without indentation of its own. -/
def memberItems : Nat → Build (List Node)
  | 0 => failure
  | fuel + 1 => do
    if ← take .blockEntry then
      let item ← nodeUnless node .block [.blockEntry, .key, .value, .blockEnd]
      return item :: (← memberItems fuel)
    else return []

def blockEntries : Nat → Build (List (Node × Node))
  | 0 => failure
  | fuel + 1 => do
    let stops := [Token.key, .value, .blockEnd]
    if ← take .key then
      let key ← nodeUnless node .member stops
      let value ← if ← take .value then nodeUnless node .member stops else pure empty
      return (key, value) :: (← blockEntries fuel)
    else
      expect .blockEnd
      return []

/-- A pair in a flow sequence, behind its key sign. -/
def flowPair (stops : List Token) : Build (Node × Node) := do
  let key ← nodeUnless node .flow (.value :: stops)
  let value ← if ← take .value then nodeUnless node .flow stops else pure empty
  return (key, value)

def flowItems : Nat → (first : Bool) → Build (List Node)
  | 0, _ => failure
  | fuel + 1, first => do
    if ← take .flowSequenceEnd then return []
    if !first then expect .flowEntry
    if ← take .flowSequenceEnd then return []
    let item ←
      if ← take .key then do
        let pair ← flowPair node [.flowEntry, .flowSequenceEnd]
        pure (Node.mapping none [pair])
      else node .flow
    return item :: (← flowItems fuel false)

def flowEntries : Nat → (first : Bool) → Build (List (Node × Node))
  | 0, _ => failure
  | fuel + 1, first => do
    if ← take .flowMappingEnd then return []
    if !first then expect .flowEntry
    if ← take .flowMappingEnd then return []
    let pair ←
      if ← take .key then flowPair node [.flowEntry, .flowMappingEnd]
      else do
        let key ← node .flow
        pure (key, empty)
    return pair :: (← flowEntries fuel false)

/-- What a node holds behind its anchor and its tag. -/
def content (site : Site) (tag : Option String) (named : Bool) : Build Node := do
  let fuel := (← get).tokens.length + 1
  match ← peek? with
  | some .blockEntry =>
    if site = .member then return .sequence tag (← memberItems node fuel)
    else if named then return .scalar tag true ""
    else failure
  | some (.scalar plain text) =>
    pop
    return .scalar tag plain text
  | some .flowSequenceStart =>
    pop
    return .sequence tag (← flowItems node fuel true)
  | some .flowMappingStart =>
    pop
    return .mapping tag (← flowEntries node fuel true)
  | some .blockSequenceStart =>
    if site = .flow then if named then return .scalar tag true "" else failure
    pop
    return .sequence tag (← blockItems node fuel)
  | some .blockMappingStart =>
    if site = .flow then if named then return .scalar tag true "" else failure
    pop
    return .mapping tag (← blockEntries node fuel)
  | _ => if named then return .scalar tag true "" else failure

end Build

open Build in
/-- A node; the first argument bounds the depth. -/
def node : Nat → Site → Build Node
  | 0, _ => failure
  | fuel + 1, site => do
    match ← peek? with
    | some (.reference name) =>
      pop
      match (← get).anchors.lookup name with
      | some (some n) => return n
      | _ => failure
    | _ =>
      let (name, tag) ← properties
      declare name
      let n ← content (node fuel) site tag (name.isSome || tag.isSome)
      define name n
      return n

namespace Build

/-- The directives before a document: one version at most, of the first generation, and each handle
at most once. -/
def directives : Nat → (versioned : Bool) → (handles : List (String × String)) → Build Unit
  | 0, _, _ => failure
  | fuel + 1, versioned, handles => do
    match ← peek? with
    | some (.version major) =>
      pop
      if versioned || major ≠ 1 then failure else directives fuel true handles
    | some (.tagDirective h start) =>
      pop
      if (handles.lookup h).isSome then failure
      else directives fuel versioned ((h, start) :: handles)
    | some .directive =>
      pop
      directives fuel versioned handles
    | _ => modify fun b => { b with handles := handles ++ b.handles }

/-- Skips the marks that end a document. -/
def documentEnds : Nat → Build Unit
  | 0 => return
  | fuel + 1 => do
    if ← take .documentEnd then documentEnds fuel else return

/-- The only document of a text, none in an empty text. -/
def document : Build (Option Node) := do
  let fuel := (← get).tokens.length + 1
  match ← peek? with
  | none => return none
  | some (.version _) | some (.tagDirective _ _) | some .directive | some .documentStart =>
    directives fuel false []
    expect .documentStart
    let stops := [Token.directive, .documentStart, .documentEnd]
    let isDirective := match ← peek? with
      | some (.version _) | some (.tagDirective _ _) => true
      | _ => false
    let n ← if isDirective || (← ahead stops) then pure empty else node fuel .block
    documentEnds fuel
    return some n
  | some _ =>
    let n ← node fuel .block
    documentEnds fuel
    return some n

end Build

/-- The tree of a text, none inside if the text is empty, none at all if it has a fault. -/
def parse? (text : List Char) : Option (Option Node) := do
  let (n, b) ← Build.document.run { tokens := ← tokens? text }
  if b.tokens.isEmpty then some n else none

end ConventionLint.Data.Yaml
