import ConventionLint.Module.Import
import ConventionLint.Proofs.DatabaseNames
import ConventionLint.Proofs.Printed

/-! Import statements as they are written, each part with the nodes that it stands for. -/
namespace ConventionLint

open Source

/-- The words that are no names anywhere, and those that mean something inside an import statement. -/
def keywords : List String :=
  ["break", "case", "catch", "class", "const", "continue", "debugger", "default", "delete", "do",
    "else", "enum", "export", "extends", "false", "finally", "for", "function", "if", "import", "in",
    "instanceof", "new", "null", "return", "super", "switch", "this", "throw", "true", "try",
    "typeof", "var", "void", "while", "with", "as", "from", "type"]

structure Identifier where
  name : String
  ascii : IsAsciiName name
  free : name ∉ keywords

/-- Whether a name is an identifier. -/
def isIdentifier (name : String) : Bool :=
  name.toList.head?.any ObjectType.isNameStart &&
    (name.toList.all fun c => c.isAlphanum || c = '_' || c = '$') && !keywords.contains name

def Identifier.of (name : String) (h : isIdentifier name = true) : Identifier :=
  have h := Bool.and_eq_true_iff.mp h
  have hname := Bool.and_eq_true_iff.mp h.1
  { name
    ascii := ⟨(Option.any_eq_true _ _).mp hname.1, List.all_eq_true.mp hname.2⟩
    free := by simpa using h.2 }

def Identifier.chars (n : Identifier) : List Char := n.name.toList

/-- One name in the braces of an import. -/
structure Specifier where
  typeOnly : Bool := false
  name : Identifier
  asName : Option Identifier := none

/-- What an import binds after its default name. The names in braces may have spaces around them. -/
inductive Bindings where
  | all (name : Identifier)
  | names (padding : Nat) (specifiers : List Specifier)

inductive Quote where
  | double
  | single

def Quote.char : Quote → Char
  | double => '"'
  | single => '\''

/-- Whether a module can be written in either quotes. -/
def isUnquoted (module : List Char) : Bool :=
  module.all fun c => !(['"', '\'', '`', '\\', '\n', '\r'].contains c)

theorem not_mem_of_isUnquoted {module : List Char} (h : isUnquoted module = true) {c : Char}
    (hc : c ∈ module) : c ∉ ['"', '\'', '`', '\\', '\n', '\r'] := by
  have hall := List.all_eq_true.mp h c hc
  rw [Bool.not_eq_true', List.contains_eq_mem] at hall
  exact of_decide_eq_false hall

/-- An import statement on a line of its own. Only names in braces are imported as types together,
and then none of them is marked. -/
structure ImportLine where
  typeOnly : Bool := false
  defaultName : Option Identifier := none
  bindings : Option Bindings := none
  quote : Quote := .single
  module : List Char
  semicolon : Bool := true
  unquoted : isUnquoted module = true
  unmarked : typeOnly = true → defaultName = none ∧
    ∃ padding specifiers, bindings = some (.names padding specifiers) ∧
      ∀ s ∈ specifiers, s.typeOnly = false

/-! How imports are written. -/

/-- A word and the space after it. -/
def spaced (word : String) : List Char := word.toList ++ [' ']

def Specifier.text (s : Specifier) : List Char :=
  (if s.typeOnly then spaced "type" else []) ++ s.name.chars ++
    (s.asName.map fun n => ' ' :: spaced "as" ++ n.chars).getD []

def Bindings.text : Bindings → List Char
  | all n => ['*', ' '] ++ spaced "as" ++ n.chars
  | names padding specifiers =>
    let spaces := List.replicate padding ' '
    ['{'] ++ spaces ++ List.intercalate [',', ' '] (specifiers.map Specifier.text) ++ spaces ++ ['}']

namespace ImportLine

/-- What stands between the quoted module and the words before it. -/
def clause (i : ImportLine) : List Char :=
  match i.defaultName, i.bindings with
  | none, none => []
  | some n, none => n.chars ++ ' ' :: spaced "from"
  | none, some b => b.text ++ ' ' :: spaced "from"
  | some n, some b => n.chars ++ [',', ' '] ++ b.text ++ ' ' :: spaced "from"

def text (i : ImportLine) : List Char :=
  spaced "import" ++ (if i.typeOnly then spaced "type" else []) ++ i.clause
    ++ [i.quote.char] ++ i.module ++ [i.quote.char] ++ (if i.semicolon then [';'] else [])

/-- The statements line by line; the last line may end with a line break too. -/
def source (lines : List ImportLine) (final : Bool) : List Char :=
  List.intercalate ['\n'] (lines.map text) ++ (if final then ['\n'] else [])

end ImportLine

/-! The nodes of imports. -/

/-- A name as a node of its own. -/
def Identifier.printed (n : Identifier) (gap : List Char) (r : Option Role) : Printed :=
  .node gap .identifier r (.plain n.chars)

namespace Specifier

variable (s : Specifier)

/-- The new name of an imported name. -/
def renamed : Option Identifier → Printed
  | none => .plain []
  | some n => .token [' '] "as" ++ n.printed [' '] (some .asName)

def named (gap : List Char) : Printed := s.name.printed gap (some .name) ++ renamed s.asName

def printed (gap : List Char) : Printed :=
  .node gap .importSpecifier none
    (if s.typeOnly then .token [] "type" ++ s.named [' '] else s.named [])

/-- A specifier that is not the first in its braces. -/
def next : Printed := .token [] "," ++ s.printed [' ']

end Specifier

namespace Bindings

/-- The names in braces up to the closing one. -/
def inBraces (padding : List Char) : List Specifier → Printed
  | [] => .token (padding ++ padding) "\x7d"
  | s :: rest =>
    (s.printed padding ++ Printed.concat (rest.map Specifier.next)) ++ .token padding "\x7d"

def printed (gap : List Char) : Bindings → Printed
  | all n =>
    .node gap .namespaceImport none (.token [] "*" ++ (.token [' '] "as" ++ n.printed [' '] none))
  | names padding specifiers =>
    .node gap .namedImports none
      (.token [] "\x7b" ++ inBraces (List.replicate padding ' ') specifiers)

end Bindings

namespace Quote

def mark : Quote → String
  | double => "\""
  | single => "'"

/-- The text between the quotes. -/
def fragments (u : List Char) : List Printed :=
  if u = [] then [] else [.node [] .fragment none (.plain u)]

def printed (q : Quote) (gap : List Char) (r : Option Role) (u : List Char) : Printed :=
  .node gap .string r (.token [] q.mark ++ (.concat (fragments u) ++ .token [] q.mark))

end Quote

namespace ImportLine

variable (i : ImportLine)

def quoted : Printed := i.quote.printed [' '] (some .module) i.module

/-- What is bound after a default name. -/
def afterDefault : Option Bindings → Printed
  | none => .plain []
  | some b => .token [] "," ++ b.printed [' ']

def clauseOf : Option Identifier → Option Bindings → Option Printed
  | none, b => b.map (Bindings.printed [])
  | some n, b => some (n.printed [] none ++ afterDefault b)

def body : Printed :=
  match clauseOf i.defaultName i.bindings with
  | none => i.quoted
  | some c => .node [' '] .importClause none c ++ (.token [' '] "from" ++ i.quoted)

/-- What follows the first word of the statement. -/
def typed : Printed := if i.typeOnly then .token [' '] "type" ++ i.body else i.body

def ending : Printed := if i.semicolon then .token [] ";" else .plain []

def printed (gap : List Char) : Printed :=
  .node gap .importStatement none (.token [] "import" ++ (i.typed ++ i.ending))

end ImportLine

/-! The nodes stand in the text as it is written. -/

theorem intercalate_cons_eq_flatten {α : Type} (separator a : List α) (l : List (List α)) :
    separator.intercalate (a :: l) = a ++ (l.map (separator ++ ·)).flatten := by
  induction l generalizing a with
  | nil => simp
  | cons b l ih => rw [List.intercalate_cons_cons, ih]; simp

theorem Source.Printed.text_concat (l : List Printed) :
    (Printed.concat l).text = (l.map Printed.text).flatten := by
  induction l with
  | nil => rfl
  | cons a l ih => rw [Printed.concat, Printed.text_append, ih]; rfl

@[simp] theorem Identifier.text_printed (n : Identifier) (gap : List Char) (r : Option Role) :
    (n.printed gap r).text = gap ++ n.chars := rfl

namespace Specifier

variable (s : Specifier) (gap : List Char)

theorem text_named : (s.named gap).text
    = gap ++ s.name.chars ++ (s.asName.map fun n => ' ' :: spaced "as" ++ n.chars).getD [] := by
  cases h : s.asName <;> simp [named, renamed, spaced, h]

@[simp] theorem text_printed : (s.printed gap).text = gap ++ s.text := by
  cases h : s.typeOnly <;> simp [printed, text, text_named, spaced, h]

@[simp] theorem text_next : s.next.text = [',', ' '] ++ s.text := by
  simp [next]

end Specifier

@[simp] theorem Bindings.text_printed (b : Bindings) (gap : List Char) :
    (b.printed gap).text = gap ++ b.text := by
  cases b with
  | all n => simp [printed, text, spaced]
  | names padding specifiers =>
    cases specifiers with
    | nil => simp [printed, inBraces, text]
    | cons s rest =>
      simp [printed, inBraces, text, intercalate_cons_eq_flatten, Printed.text_concat,
        Function.comp_def]

theorem Quote.toList_mark (q : Quote) : q.mark.toList = [q.char] := by cases q <;> rfl

theorem Quote.text_fragments (u : List Char) : (Printed.concat (fragments u)).text = u := by
  by_cases h : u = [] <;> simp [fragments, h, Printed.concat]

@[simp] theorem Quote.text_printed (q : Quote) (gap : List Char) (r : Option Role) (u : List Char) :
    (q.printed gap r u).text = gap ++ (q.char :: (u ++ [q.char])) := by
  simp [printed, text_fragments, toList_mark]

namespace ImportLine

variable (i : ImportLine)

theorem text_body :
    i.body.text = ' ' :: (i.clause ++ (i.quote.char :: (i.module ++ [i.quote.char]))) := by
  cases hn : i.defaultName <;> cases hb : i.bindings <;>
    simp [body, clauseOf, afterDefault, clause, quoted, spaced, hn, hb]

@[simp] theorem text_printed (gap : List Char) : (i.printed gap).text = gap ++ i.text := by
  cases ht : i.typeOnly <;> cases hs : i.semicolon <;>
    simp [printed, typed, ending, text, text_body, spaced, ht, hs]

end ImportLine

end ConventionLint
