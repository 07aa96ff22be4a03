import ConventionLint.Data.Number
import ConventionLint.Text.Quoted

/-! Values of configuration files and reports. -/
namespace ConventionLint.Data

inductive Value where
  | null
  | bool (b : Bool)
  | number (n : Number)
  | text (s : String)
  | list (items : List Value)
  /-- Entries in order; no two keys are alike. -/
  | map (entries : List (Value × Value))
  /-- A value of another type, such as a date, by its two texts. -/
  | other (plain shown : String)

namespace Value

mutual

/-- A value as it is written inside of other values. -/
def shown : Value → String
  | null => "None"
  | bool b => if b then "True" else "False"
  | number n => n.text
  | text s => Text.quoted s
  | list items => "[" ++ ", ".intercalate (shownItems items) ++ "]"
  | map entries => "\x7b" ++ ", ".intercalate (shownEntries entries) ++ "\x7d"
  | other _ shown => shown

def shownItems : List Value → List String
  | [] => []
  | v :: r => v.shown :: shownItems r

def shownEntries : List (Value × Value) → List String
  | [] => []
  | (k, v) :: r => (k.shown ++ ": " ++ v.shown) :: shownEntries r

end

/-- A value as it is written on its own: a text without quotes. -/
def plain : Value → String
  | text s => s
  | other plain _ => plain
  | v => v.shown

/-- Whether a value counts as true. -/
def isTrue : Value → Bool
  | null => false
  | bool b => b
  | number n => !n.isZero
  | text s => !s.isEmpty
  | list items => !items.isEmpty
  | map entries => !entries.isEmpty
  | other _ _ => true

/-- Booleans count as numbers among keys. -/
def keyNumber? : Value → Option Number
  | bool b => some (.int (if b then 1 else 0))
  | number n => some n
  | _ => none

/-- Whether two values are one key. -/
def sameKey (a b : Value) : Bool :=
  match a.keyNumber?, b.keyNumber? with
  | some m, some n => m.same n
  | none, none =>
    match a, b with
    | null, null => true
    | text s, text t => s = t
    | other _ s, other _ t => s = t
    | _, _ => false
  | _, _ => false

/-- Puts a value under a key; a key that is there keeps its place. -/
def put (key value : Value) : List (Value × Value) → List (Value × Value)
  | [] => [(key, value)]
  | e :: r => if e.1.sameKey key then (e.1, value) :: r else e :: put key value r

def ofEntries (entries : List (Value × Value)) : Value :=
  map (entries.foldl (fun m e => put e.1 e.2 m) [])

/-- The value of an entry whose key is a text. -/
def lookup (name : String) : List (Value × Value) → Option Value
  | [] => none
  | (text s, v) :: r => if s = name then some v else lookup name r
  | _ :: r => lookup name r

end Value

end ConventionLint.Data
