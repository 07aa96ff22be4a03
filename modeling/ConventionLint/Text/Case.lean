import ConventionLint.Text.CaseTable

/-! Upper and lower case of all scripts. -/
namespace ConventionLint.Text

def CaseRun.apply (n : Nat) (r : CaseRun) : Option Nat :=
  if r.first ≤ n ∧ n ≤ r.last ∧ (n - r.first) % r.step = 0 then some (n + r.offset).toNat else none

/-- The characters that a table gives for a code point, the same one if it is in no run. -/
def mapCase (special : List (Nat × List Nat)) (runs : List CaseRun) (n : Nat) : List Char :=
  match special.lookup n with
  | some ns => ns.map Char.ofNat
  | none => [Char.ofNat ((runs.findSome? (CaseRun.apply n)).getD n)]

def upperChar (c : Char) : List Char :=
  if c.toNat < 0x80 then [c.toUpper] else mapCase upperSpecial upperRuns c.toNat

def lowerChar (c : Char) : List Char :=
  if c.toNat < 0x80 then [c.toLower] else mapCase lowerSpecial lowerRuns c.toNat

/-- Whether the nearest character that counts has a case. -/
def nextCased (cs : List Char) : Bool :=
  (cs.dropWhile fun c => inRanges caseIgnorableRanges c.toNat).head?.any fun c =>
    inRanges casedRanges c.toNat

/-- Lower case of a text; the characters before it are given in reverse. A capital sigma at the end
of a word has a form of its own. -/
def lowerAfter (before : List Char) : List Char → List Char
  | [] => []
  | c :: r =>
    (if c = '\u03a3' then [if nextCased before && !nextCased r then '\u03c2' else '\u03c3'] else lowerChar c)
      ++ lowerAfter (c :: before) r

def lower (cs : List Char) : List Char := lowerAfter [] cs

/-- The text with its first character in upper case. -/
def capitalize : List Char → List Char
  | [] => []
  | c :: r => upperChar c ++ r

end ConventionLint.Text
