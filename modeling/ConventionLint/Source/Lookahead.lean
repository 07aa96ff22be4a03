import ConventionLint.Source.Reader

/-! What follows a bracketed group, found by counting brackets. It decides which of two readings is
tried first, so that nested groups are read once. -/
namespace ConventionLint.Source

/-- The text after a quoted string on one line, from behind its opening quote. -/
def afterQuote (quote : Char) : List Char → Option (List Char)
  | [] => none
  | '\\' :: _ :: r => afterQuote quote r
  | c :: r => if c = quote then some r else if c = '\n' then none else afterQuote quote r

/-- The text after the next end or substitution of a template, and whether it is a substitution. -/
def afterTemplate : List Char → Option (Bool × List Char)
  | [] => none
  | '\\' :: _ :: r => afterTemplate r
  | '`' :: r => some (false, r)
  | '$' :: '{' :: r => some (true, r)
  | _ :: r => afterTemplate r

/-- Characters after which a slash starts a regular expression. -/
def expectsOperand (c : Char) : Bool :=
  "(,=:[!&|?\x7b\x7d;+-*%~^<>".toList.contains c

/-- A scan of bracketed groups: of each group that is open whether it is a substitution of a template,
the last character that is no gap, and what is left. -/
structure GroupScan where
  groups : List Bool
  last : Char
  rest : List Char

namespace GroupScan

/-- Goes on behind the text of a template. -/
def template (groups : List Bool) (r : List Char) : Option GroupScan :=
  match afterTemplate r with
  | none => none
  | some (true, r) => some ⟨true :: groups, '{', r⟩
  | some (false, r) => some ⟨groups, '`', r⟩

/-- Passes the lexeme that starts with `c`. -/
def pass (groups : List Bool) (last c : Char) (r : List Char) : Option GroupScan :=
  if c = '(' || c = '[' || c = '{' then some ⟨false :: groups, c, r⟩
  else if c = ')' || c = ']' || c = '}' then
    match groups with
    | [] => none
    | [_] => some ⟨[], c, r⟩
    | false :: groups => some ⟨groups, c, r⟩
    | true :: groups => template groups r
  else if c = '"' || c = '\'' then some ⟨groups, c, (afterQuote c r).getD r⟩
  else if c = '`' then template groups r
  else if c = '/' then
    match commentLength (c :: r) with
    | 0 =>
      if expectsOperand last then
        match regexLength r with
        | 0 => some ⟨groups, c, r⟩
        | k => some ⟨groups, c, r.drop (k + 1)⟩
      else some ⟨groups, c, r⟩
    | k => some ⟨groups, last, r.drop (k - 1)⟩
  else some ⟨groups, if isGap c then last else c, r⟩

/-- The text after the bracket that closes all groups; fewer than `n` lexemes are passed. -/
def afterAll : Nat → GroupScan → Option (List Char)
  | 0, _ => none
  | _ + 1, ⟨[], _, r⟩ => some r
  | _ + 1, ⟨_, _, []⟩ => none
  | n + 1, ⟨groups, last, c :: r⟩ => (pass groups last c r).bind (afterAll n)

end GroupScan

namespace Reader

/-- The text from the token after the bracketed group that comes next. -/
def beyondGroup : Reader (List Char) := fun s =>
  let t := s.skipGaps
  match t.rest with
  | [] => some ([], s)
  | c :: r =>
    match GroupScan.afterAll (r.length + 1) ⟨[false], c, r⟩ with
    | none => some ([], s)
    | some r => some ((State.skipGaps { t with rest := r }).rest, s)

end Reader

end ConventionLint.Source
