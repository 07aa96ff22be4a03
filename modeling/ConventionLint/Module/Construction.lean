import ConventionLint.Module.Export

/-! Constructions: the `new` expressions of a module. -/
namespace ConventionLint

open Source

structure Construction where
  constructor : String
  text : String
  /-- The properties of an object literal that is the first argument, a repeated one in its first
  place with its last value. A value is known only if it is a plain string. -/
  options : Option (List (String × Option String))
deriving DecidableEq

/-- Sets a value in a list of properties: in place if the key is there, at the end if not. -/
def setOption (key : String) (value : Option String) :
    List (String × Option String) → List (String × Option String)
  | [] => [(key, value)]
  | (k, v) :: rest => if k = key then (k, value) :: rest else (k, v) :: setOption key value rest

namespace Source.Node

/-- Visits at most `n` nodes: each before the nodes below it, and those from left to right. -/
def walkUpTo : Nat → List Node → List Node
  | 0, _ => []
  | _, [] => []
  | n + 1, c :: rest => c :: walkUpTo n (c.namedChildren ++ rest)

/-- The named nodes of a tree, each before the nodes below it. -/
def walk (root : Node) : List Node := walkUpTo root.size [root]

/-- What a chain of at most `n` method calls starts from. -/
def chainRootUpTo : Nat → Node → Node
  | 0, v => v
  | n + 1, v =>
    if v.kind? = some .callExpression then
      match ((v.child? .callee).filter fun c => c.kind? = some .memberExpression).bind
          (·.child? .target) with
      | some t => chainRootUpTo n t.unwrap
      | none => v
    else v

def chainRoot (v : Node) : Node := chainRootUpTo v.size v.unwrap

end Source.Node

namespace Module

variable (m : Module)

/-- The value of a plain string; escapes are left out. -/
def plainString (n : Node) : Option String :=
  if n.kind? = some .string then
    some (String.join ((n.namedChildren.filter fun c => c.kind? = some .fragment).map m.textOf))
  else none

def optionsOf (o : Node) : List (String × Option String) :=
  o.namedChildren.foldl (fun options p =>
    if p.kind? = some .pair then
      match p.child? .key with
      | some k =>
        if k.kind? = some .propertyName then
          setOption (m.textOf k) ((p.child? .value).bind m.plainString) options
        else options
      | none => options
    else options) []

def constructionOf (n : Node) : Construction where
  constructor := ((n.child? .constructor).map m.textOf).getD ""
  text := m.textOf n
  options := (n.child? .arguments).bind fun a =>
    a.namedChildren.head?.bind fun first =>
      if first.unwrap.kind? = some .object then some (m.optionsOf first.unwrap) else none

/-- Every construction in the module, in source order. -/
def constructions : List Construction :=
  (m.root.walk.filter fun n => n.kind? = some .newExpression).map m.constructionOf

def constructionsOf (constructor : String) : List Construction :=
  m.constructions.filter fun c => c.constructor = constructor

/-- The construction that the default export's method calls start from. -/
def defaultConstruction : Option Construction :=
  m.defaultStatement.bind fun e =>
    (e.child? .value).bind fun v =>
      if v.chainRoot.kind? = some .newExpression then some (m.constructionOf v.chainRoot) else none

end Module

end ConventionLint
