import ConventionLint.Source.Reader

/-! Where a statement may end without a semicolon: at the end of the text, before a closing brace,
and at a line break that what follows does not continue. -/
namespace ConventionLint.Source

/-- What may follow at a possible end: whether an operator could go on, and whether a body could
follow a signature. -/
structure Follow where
  operator : Bool
  body : Bool

/-- Passes over at most `n` gaps and comments; `none` at a slash that starts no comment. -/
def passComments : Nat → List Char → Option (List Char)
  | 0, cs => some cs
  | n + 1, cs =>
    match cs.dropWhile isLineGap with
    | '/' :: '/' :: r => passComments n (r.dropWhile (· ≠ '\n'))
    | '/' :: '*' :: r => passComments n (r.drop ((blockLength r).getD r.length))
    | '/' :: _ => none
    | r => some r

/-- Whether the text after the word `in` or `instanceof` goes on with a letter. -/
def goesOn (cs : List Char) : Bool :=
  cs.head?.any fun c => c.isAlpha || ('\x7f' < c && isNamePart c)

/-- Whether a line that starts with these characters belongs to the statement before it. -/
def continues (f : Follow) : List Char → Bool
  | [] => false
  | '{' :: _ => f.body
  | '(' :: _ => f.operator
  | '[' :: _ => f.operator
  | '+' :: r => r.head? ≠ some '+'
  | '-' :: r => r.head? ≠ some '-'
  | '!' :: r => r.head? = some '='
  | 'i' :: 'n' :: r =>
    !goesOn r || ("stanceof".toList.isPrefixOf r && !goesOn (r.drop 8))
  | c :: _ => "`,.;*%><=?^|&/:".toList.contains c

/-- Whether a semicolon is understood right after the last token. -/
def endsHere (f : Follow) (cs : List Char) : Bool :=
  match cs.dropWhile fun c => isLineGap c && c ≠ '\n' with
  | [] => true
  | '}' :: r => (r.dropWhile isLineGap).head? ≠ some ':' || f.operator
  | '\n' :: r => (passComments (r.length + 1) r).any fun r => !continues f r
  | _ => false

namespace Reader

/-- A comment that starts on this line. -/
def lineComment : Reader Unit := fun s =>
  let s := s.skip (s.rest.takeWhile isGap).length
  match commentLength s.rest with
  | 0 => none
  | n => some ((), s.takeComment n)

/-- The end of a statement that no semicolon marks. Comments before it belong to the statement. -/
def understoodUpTo (f : Follow) : Nat → Reader Unit
  | 0 => failure
  | n + 1 => do
    if endsHere f (← here) then pure ()
    else
      lineComment
      understoodUpTo f n

def understood (f : Follow) : Reader Unit := fun s =>
  understoodUpTo f (s.rest.length + 1) s

def semicolon (f : Follow) : Reader Unit := understood f <|> lit ";"

/-- Succeeds where the statement goes on: no line break ends it before the next token. -/
def onward (line : Bool) (f : Follow) : Reader Unit := do
  if line then guard (!(← can (understood f)))

end Reader

end ConventionLint.Source
