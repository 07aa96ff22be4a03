import ConventionLint.Log
import ConventionLint.Text.Case
import ConventionLint.Text.Front

/-! Variables that hold a database, the functions that make one for tests, and the variables that are
known of a project. -/
namespace ConventionLint

open Text

/-- A variable, the module that declares it and its testing factory. -/
structure DatabaseVariable where
  name : String
  modulePath : String
  testingFactory : String
deriving DecidableEq

/-- The name of the testing factory: between `createTesting` and the suffix stands the variable's
name without that suffix, its first letter in upper case. -/
def testingFactoryName (name suffix : String) : String :=
  let stem :=
    if suffix.isEmpty then name.toList
    else (before? suffix.toList name.toList).getD name.toList
  "createTesting" ++ String.ofList (capitalize stem) ++ suffix

/-- Two variables whose testing factories would have one name. -/
structure Collision where
  first : String
  second : String
  factory : String
deriving DecidableEq

def Collision.message (e : Collision) : String :=
  "Database variables '" ++ e.first ++ "' and '" ++ e.second
    ++ "' both derive the testing factory '" ++ e.factory ++ "'"

/-- Variables in the order of their declaration, no two of one name. -/
structure Catalog where
  entries : List DatabaseVariable := []

namespace Catalog

def get? (c : Catalog) (name : String) : Option DatabaseVariable :=
  c.entries.find? fun v => v.name = name

def contains (c : Catalog) (name : String) : Bool := (c.get? name).isSome

def size (c : Catalog) : Nat := c.entries.length

/-- The variables in the order of their names. -/
def toList (c : Catalog) : List DatabaseVariable :=
  c.entries.mergeSort fun a b => decide (a.name ≤ b.name)

/-- The names of the variables, in order. -/
def names (c : Catalog) : List String :=
  (c.entries.map (·.name)).mergeSort fun a b => decide (a ≤ b)

def owner? (c : Catalog) (factory : String) : Option DatabaseVariable :=
  c.entries.find? fun v => v.testingFactory = factory

/-- The record of a variable that is declared twice. -/
def repeated (first again : DatabaseVariable) : LogRecord :=
  ⟨.warning, .databases, "Database variable " ++ again.name ++ " declared in both "
    ++ first.modulePath ++ " and " ++ again.modulePath ++ "; keeping the first"⟩

/-- Adds variables to a catalog. The first declaration of a name counts; a factory must not belong
to another name. -/
def insertAll (c : Catalog) : List DatabaseVariable → Except Collision Catalog × List LogRecord
  | [] => (.ok c, [])
  | v :: r =>
    match c.get? v.name with
    | some first =>
      let (result, log) := insertAll c r
      (result, repeated first v :: log)
    | none =>
      match c.owner? v.testingFactory with
      | some other => (.error ⟨other.name, v.name, v.testingFactory⟩, [])
      | none => insertAll ⟨c.entries ++ [v]⟩ r

def ofList (found : List DatabaseVariable) : Except Collision Catalog × List LogRecord :=
  insertAll {} found

end Catalog

end ConventionLint
