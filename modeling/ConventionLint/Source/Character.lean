/-! Character classes of TypeScript sources. -/
namespace ConventionLint.Source

/-- Space separators of Unicode. -/
def isSpaceSeparator (c : Char) : Bool :=
  c = ' ' || c = '\u00a0' || c = '\u1680' || ('\u2000' ≤ c && c ≤ '\u200a') || c = '\u202f'
    || c = '\u205f' || c = '\u3000'

/-- Characters that may stand between two tokens. -/
def isGap (c : Char) : Bool :=
  isSpaceSeparator c || ('\t' ≤ c && c ≤ '\r') || c = '\ufeff' || c = '\u2028' || c = '\u2029'
    || c = '\u2060' || c = '\u200b'

/-- Characters that the search for the end of a statement passes over. Spaces that forbid a line
break are not among them. -/
def isLineGap (c : Char) : Bool :=
  ('\t' ≤ c && c ≤ '\r') || c = ' ' || c = '\u1680' || ('\u2000' ≤ c && c ≤ '\u2006')
    || ('\u2008' ≤ c && c ≤ '\u200a') || c = '\u2028' || c = '\u2029' || c = '\u205f'
    || c = '\u3000'

/-- Characters that end a line comment. -/
def endsLine (c : Char) : Bool :=
  c = '\n' || c = '\r' || c = '\u2028' || c = '\u2029'

def isPunctuation (c : Char) : Bool :=
  ":;`\"'@#.,|^&<=>+-*/\\%?!~()[]\x7b\x7d".toList.contains c

/-- Characters after the first one of a name: all but controls, gaps and punctuation. -/
def isNamePart (c : Char) : Bool :=
  !(c ≤ '\x1f' || isGap c || isPunctuation c)

def isNameStart (c : Char) : Bool :=
  isNamePart c && !c.isDigit

def isHexDigit (c : Char) : Bool :=
  c.isDigit || ('a' ≤ c && c ≤ 'f') || ('A' ≤ c && c ≤ 'F')

def isOctalDigit (c : Char) : Bool :=
  '0' ≤ c && c ≤ '7'

def isBinaryDigit (c : Char) : Bool :=
  c = '0' || c = '1'

end ConventionLint.Source
