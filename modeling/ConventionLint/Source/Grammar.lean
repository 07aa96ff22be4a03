import ConventionLint.Source.Grammar.Statement

/-! The grammar of both dialects, tied together over a bound on how deep phrases may nest. -/
namespace ConventionLint.Source

open Reader

/-- One level of every phrase. -/
def step (d : Dialect) (g : Phrases) : Phrases
  | .statement => statement g
  | .block => block g
  | .expression at_ => expression g at_
  | .operand at_ => operand g d at_
  | .chain at_ => chain g d (classExpression g) at_
  | .construction => construction g (classExpression g)
  | .typeTerm line => typeTerm g line
  | .pattern => pattern g
  | .element => element g

def phrases (d : Dialect) : Nat → Phrases
  | 0 => fun _ => failure
  | n + 1 => step d (phrases d n)

/-- The tree of a text, or `none` if the text is not a program. Phrases nest at most eight deep for
each character they consume. -/
def parse (d : Dialect) (text : List Char) : Option Node :=
  (program (phrases d (8 * text.length + 64)) ⟨text, 0, []⟩).bind fun r => r.2.found.head?

end ConventionLint.Source
