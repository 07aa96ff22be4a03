import ConventionLint.Source.Grammar
import ConventionLint.Text.Blank

/-! TypeScript modules: a text with its tree. -/
namespace ConventionLint

open Source

/-- Why a text is no module. -/
inductive ParseFailure where
  | noGrammar (path : String)
  | malformed (path : String)
deriving DecidableEq

def ParseFailure.message : ParseFailure → String
  | noGrammar path => "No TypeScript grammar for " ++ path
  | malformed path => "Syntax errors in " ++ path

structure Module where
  text : List Char
  root : Node

namespace Module

/-- The file name's part after its last dot, with the dot. Both slashes separate directories. -/
def extension (path : String) : String :=
  let file := path.toList.reverse.takeWhile fun c => c ≠ '/' && c ≠ '\\'
  if file.contains '.' then
    String.ofList ('.' :: (file.takeWhile (· ≠ '.')).reverse)
  else ""

/-- The extensions a module can have, and how each is read. -/
def dialects : List (String × Dialect) :=
  [(".ts", .plain), (".mts", .plain), (".cts", .plain), (".tsx", .markup)]

def dialect? (path : String) : Option Dialect :=
  (dialects.find? fun d => d.1 = extension path).map (·.2)

def parse (text path : String) : Except ParseFailure Module :=
  match dialect? path with
  | none => .error (.noGrammar path)
  | some d =>
    match Source.parse d text.toList with
    | none => .error (.malformed path)
    | some root => .ok ⟨text.toList, root⟩

/-- The source text of a node. -/
def textOf (m : Module) (n : Node) : String :=
  String.ofList (n.span.cut m.text)

end Module

namespace Source.Node

mutual

/-- What parentheses, casts and non-null marks are put around: the first named node inside. -/
def unwrap : Node → Node
  | .mk .wrapper r s cs => (unwrapFirst cs).getD (.mk .wrapper r s cs)
  | n => n

def unwrapFirst : List Node → Option Node
  | [] => none
  | c :: cs => if c.isNamed then some (unwrap c) else unwrapFirst cs

end

mutual

/-- The number of nodes in a tree. -/
def size : Node → Nat
  | .comment _ => 1
  | .mk _ _ _ cs => 1 + sizes cs

def sizes : List Node → Nat
  | [] => 0
  | c :: cs => size c + sizes cs

end

end Source.Node

end ConventionLint
