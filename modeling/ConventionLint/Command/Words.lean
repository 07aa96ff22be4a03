import ConventionLint.Text.Front
import ConventionLint.Text.Quoted
import ConventionLint.Text.Similarity

/-! The words of a command line: options with their values, and arguments. -/
namespace ConventionLint.Command

open Text

/-- What the value of an option has to be. -/
inductive OptionKind where
  | flag
  | text
  | choice (names : List String)
  | file
  | directory
deriving DecidableEq

/-- An option, under its main name and maybe a short one. -/
structure OptionSpec where
  name : String
  kind : OptionKind
  letter : Option Char := none

/-- What is wrong with a command line. -/
inductive UsageError where
  | noSuchOption (name : String) (similar : List String)
  | noSuchCommand (name : String) (similar : List String)
  | valueMissing (option : String)
  | valueUnexpected (option : String)
  | commandMissing
  | argumentMissing (parameter : String)
  | extraArguments (arguments : List String)
  | noChoice (parameter value : String) (choices : List String)
  | noSuchPath (parameter kind value : String)
  | otherPath (parameter kind value found : String)
deriving DecidableEq

/-- Names that may have been meant. -/
def suggestion : List String → String
  | [] => ""
  | [name] => " Did you mean " ++ quoted name ++ "?"
  | names => " (Possible options: " ++ ", ".intercalate (names.map quoted) ++ ")"

def UsageError.message : UsageError → String
  | noSuchOption name similar => "No such option " ++ quoted name ++ "." ++ suggestion similar
  | noSuchCommand name similar => "No such command " ++ quoted name ++ "." ++ suggestion similar
  | valueMissing option => "Option " ++ quoted option ++ " requires an argument."
  | valueUnexpected option => "Option " ++ quoted option ++ " does not take a value."
  | commandMissing => "Missing command."
  | argumentMissing parameter => "Missing argument '" ++ parameter ++ "'."
  | extraArguments [one] => "Got unexpected extra argument (" ++ one ++ ")"
  | extraArguments many => "Got unexpected extra arguments (" ++ " ".intercalate many ++ ")"
  | noChoice parameter value choices =>
    "Invalid value for '" ++ parameter ++ "': " ++ quoted value ++ " is not one of "
      ++ ", ".intercalate (choices.map quoted) ++ "."
  | noSuchPath parameter kind value =>
    "Invalid value for '" ++ parameter ++ "': " ++ kind ++ " " ++ quoted value ++ " does not exist."
  | otherPath parameter kind value found =>
    "Invalid value for '" ++ parameter ++ "': " ++ kind ++ " " ++ quoted value ++ " is a " ++ found
      ++ "."

/-- Options by their main names, with their values, and arguments, both in order. -/
structure Words where
  options : List (String × String) := []
  arguments : List String := []

namespace Words

variable (w : Words)

def withOption (name value : String) : Words := { w with options := (name, value) :: w.options }

def withArgument (word : String) : Words := { w with arguments := word :: w.arguments }

/-- All values of an option. -/
def values (name : String) : List String :=
  (w.options.filter fun o => o.1 = name).map (·.2)

/-- The value of an option. The last one counts. -/
def value? (name : String) : Option String := (w.values name).getLast?

def has (name : String) : Bool := !(w.values name).isEmpty

/-- The options that are given, in the order in which they first occur. -/
def names : List String := (w.options.map (·.1)).eraseDups

end Words

variable (specs : List OptionSpec) (mixed : Bool)

def named? (name : String) : Option OptionSpec := specs.find? fun s => s.name = name

def lettered? (c : Char) : Option OptionSpec := specs.find? fun s => s.letter = some c

/-- The flags of one word such as `-vq`. -/
def flags : List Char → Except UsageError (List (String × String))
  | [] => .ok []
  | c :: r =>
    match lettered? specs c with
    | none => .error (.noSuchOption (String.ofList ['-', c]) [])
    | some s => do return (s.name, "") :: (← flags r)

/-- The name and the value of a word such as `--name=value`. -/
def splitValue (word : String) : String × Option String :=
  let cs := word.toList
  let name := cs.takeWhile (· ≠ '=')
  (String.ofList name, (cs.drop name.length).tail?.map String.ofList)

/-- Reads words. All after `--` are arguments, and without `mixed` all after the first argument. -/
def Words.read : List String → Except UsageError Words
  | [] => .ok {}
  | word :: rest =>
    if word = "--" then .ok { arguments := rest }
    else if !word.startsWith "-" || word = "-" then
      if mixed then do return (← Words.read rest).withArgument word
      else .ok { arguments := word :: rest }
    else if word.startsWith "--" then
      let (name, value?) := splitValue word
      match named? specs name with
      | none => .error (.noSuchOption name (similar name (specs.map (·.name))))
      | some s =>
        match s.kind, value?, rest with
        | .flag, some _, _ => .error (.valueUnexpected name)
        | .flag, none, rest => do return (← Words.read rest).withOption name ""
        | _, some value, rest => do return (← Words.read rest).withOption name value
        | _, none, [] => .error (.valueMissing name)
        | _, none, value :: rest => do return (← Words.read rest).withOption name value
    else do
      let given ← flags specs (word.toList.drop 1)
      let w ← Words.read rest
      return { w with options := given ++ w.options }

end ConventionLint.Command
