import ConventionLint.Data.Yaml.Node
import ConventionLint.Data.Yaml.Timestamp
import ConventionLint.Text.Blank

/-! The values of YAML nodes. -/
namespace ConventionLint.Data.Yaml

/-- Why a text is no value. -/
inductive Error where
  | malformed
  | integer (base : Nat) (text : String)
  | float (text : String)
  | bool (text : String)
  | timestamp (e : TimestampError)
deriving DecidableEq

def Error.message : Error → String
  | malformed => ""
  | integer base text => s!"invalid literal for int() with base {base}: {Text.quoted text}"
  | float text => "could not convert string to float: " ++ Text.quoted text
  | bool text => Text.quoted text
  | timestamp e => e.message

def isDigitOrLine (c : Char) : Bool := c.isDigit || c = '_'

def dropSign : List Char → List Char
  | '-' :: r => r
  | '+' :: r => r
  | r => r

/-- Groups behind colons, each a number below 60. -/
def sixtieths : Nat → List Char → Option (List Char)
  | 0, _ => none
  | fuel + 1, ':' :: r =>
    let rest := match r with
      | a :: b :: s =>
        if '0' ≤ a && a ≤ '5' && b.isDigit then some s else if a.isDigit then some (b :: s) else none
      | [a] => if a.isDigit then some [] else none
      | [] => none
    rest.bind fun s => if s.head? = some ':' then sixtieths fuel s else some s
  | _ + 1, _ => none

def isExponent : List Char → Bool
  | [] => true
  | e :: s :: d :: r =>
    (e = 'e' || e = 'E') && (s = '+' || s = '-') && d.isDigit && r.all Char.isDigit
  | _ => false

def isFloat (cs : List Char) : Bool :=
  let body := dropSign cs
  let point (r : List Char) : Bool := match r with
    | '.' :: r => isExponent (r.dropWhile isDigitOrLine)
    | _ => false
  let groups (r : List Char) : Bool := match sixtieths (r.length + 1) r with
    | some ('.' :: r) => r.all isDigitOrLine
    | _ => false
  (body.head?.any Char.isDigit &&
      (point (body.dropWhile isDigitOrLine) || groups (body.dropWhile isDigitOrLine)))
    || (match cs with
      | '.' :: d :: r => d.isDigit && isExponent (r.dropWhile isDigitOrLine)
      | _ => false)
    || [".inf", ".Inf", ".INF"].contains (String.ofList body)
    || [".nan", ".NaN", ".NAN"].contains (String.ofList cs)

def isInteger (cs : List Char) : Bool :=
  let only (p : Char → Bool) (r : List Char) : Bool := !r.isEmpty && r.all fun c => p c || c = '_'
  match dropSign cs with
  | ['0'] => true
  | '0' :: 'b' :: r => only (fun c => c = '0' || c = '1') r
  | '0' :: 'x' :: r => only (fun c => (Json.hexValue? c).isSome) r
  | '0' :: r => only (fun c => '0' ≤ c && c ≤ '7') r
  | c :: r =>
    c.isDigit && (r.all isDigitOrLine ||
      (let s := r.dropWhile isDigitOrLine
       sixtieths (s.length + 1) s = some []))
  | [] => false

def boolWords : List (String × Bool) :=
  [("yes", true), ("no", false), ("true", true), ("false", false), ("on", true), ("off", false)]

/-- Words are written in small letters, in capitals, or with one capital at the front. -/
def isBool (cs : List Char) : Bool :=
  let small := cs.map Char.toLower
  (boolWords.lookup (String.ofList small)).isSome &&
    (cs = small || cs = small.map Char.toUpper
      || cs = (small.take 1).map Char.toUpper ++ small.drop 1)

def core (name : String) : String := "tag:yaml.org,2002:" ++ name

/-- The tag that the text of a plain scalar has by itself. -/
def plainTag (text : String) : String :=
  let cs := text.toList
  if isBool cs then core "bool"
  else if isFloat cs then core "float"
  else if isInteger cs then core "int"
  else if text = "<<" then core "merge"
  else if ["", "~", "null", "Null", "NULL"].contains text then core "null"
  else if (Timestamp.read? true cs).isSome then core "timestamp"
  else if text = "=" then core "value"
  else core "str"

def Node.tag : Node → String
  | .scalar none plain text => if plain then plainTag text else core "str"
  | .scalar (some t) _ text => if t = "!" then plainTag text else t
  | .sequence t _ => if t.getD "!" = "!" then core "seq" else t.getD ""
  | .mapping t _ => if t.getD "!" = "!" then core "map" else t.getD ""

/-- The number that digits of a base stand for. -/
def digitsIn (base : Nat) (text : List Char) : Except Error Nat :=
  let value (c : Char) : Option Nat := (Json.hexValue? c).filter (· < base)
  match text.foldlM (fun n c => (value c).map (n * base + ·)) 0 with
  | some n => if text.isEmpty then .error (.integer base "") else .ok n
  | none => .error (.integer base (String.ofList text))

def integer (text : String) : Except Error Int := do
  let cs := text.toList.filter (· ≠ '_')
  let body := dropSign cs
  let n ← match body with
    | ['0'] => .ok 0
    | '0' :: 'b' :: r => digitsIn 2 r
    | '0' :: 'x' :: r => digitsIn 16 r
    | '0' :: r => digitsIn 8 ('0' :: r)
    | _ =>
      if body.contains ':' then
        (Text.splitAt ':' body).foldlM
          (fun n part => (digitsIn 10 part).map fun d => n * 60 + d) 0
      else digitsIn 10 body
  return if cs.head? = some '-' then -(n : Int) else n

/-- A decimal with an optional fraction and an optional power. -/
def decimal? (cs : List Char) : Option Number := do
  let ws := cs.takeWhile Char.isDigit
  let (fs, r) := match cs.dropWhile Char.isDigit with
    | '.' :: r => (r.takeWhile Char.isDigit, r.dropWhile Char.isDigit)
    | r => ([], r)
  if ws.isEmpty && fs.isEmpty then none
  else
    let (p, r) := (Json.power? r).getD (0, r)
    if r.isEmpty then some (Number.ofDecimal false (Json.digitsValue (ws ++ fs)) (p - fs.length))
    else none

def unsignedFloat (cs : List Char) : Except Error Float :=
  match String.ofList cs with
  | ".inf" | "inf" | "infinity" => .ok (1.0 / 0.0)
  | ".nan" | "nan" => .ok (0.0 / 0.0)
  | text =>
    if cs.contains ':' then
      match (Text.splitAt ':' cs).mapM decimal? with
      | some parts =>
        .ok (parts.reverse.foldl
          (fun (sum, base) part => (sum + part.toFloat * base, base * 60.0)) (0.0, 1.0)).1
      | none => .error (.float text)
    else match decimal? cs with
      | some n => .ok n.toFloat
      | none => .error (.float text)

def float (text : String) : Except Error Float := do
  let cs := (text.toList.filter (· ≠ '_')).map Char.toLower
  let x ← unsignedFloat (dropSign cs)
  return if cs.head? = some '-' then -x else x

def scalarValue (tag text : String) : Except Error Value :=
  if tag = core "str" then .ok (.text text)
  else if tag = core "null" then .ok .null
  else if tag = core "bool" then
    let word := text.map Char.toLower
    match boolWords.lookup word with
    | some b => .ok (.bool b)
    | none => .error (.bool word)
  else if tag = core "int" then (integer text).map fun n => .number (.int n)
  else if tag = core "float" then (float text).map fun x => .number (.float x)
  else if tag = core "timestamp" then
    match Timestamp.read? false text.toList with
    | none => .error .malformed
    | some t =>
      match t.fault? with
      | some e => .error (.timestamp e)
      | none => .ok (.other t.plain t.shown)
  else .error .malformed

/-- Values that cannot be keys. -/
def isCollection : Value → Bool
  | .list _ => true
  | .map _ => true
  | _ => false

/-- Two values as one of another type. -/
def pair (k v : Value) : Value :=
  let text := "(" ++ k.shown ++ ", " ++ v.shown ++ ")"
  .other text text

mutual

/-- The value of a node; the first argument bounds the depth. -/
def Node.value : Nat → Node → Except Error Value
  | 0, _ => .error .malformed
  | fuel + 1, n =>
    match n with
    | .scalar _ _ text => scalarValue n.tag text
    | .sequence _ items =>
      if n.tag = core "seq" then (items.mapM (Node.value fuel)).map .list
      else if n.tag = core "omap" || n.tag = core "pairs" then
        (items.mapM fun (i : Node) =>
          match i with
          | .mapping _ [(k, v)] => do return pair (← Node.value fuel k) (← Node.value fuel v)
          | _ => .error .malformed).map .list
      else .error .malformed
    | .mapping _ entries => do
      let es ← Node.entries fuel entries
      if n.tag = core "map" then return Value.ofEntries es
      else if n.tag = core "set" then
        let text := "\x7b" ++ ", ".intercalate (es.map fun e => e.1.shown) ++ "\x7d"
        return .other text text
      else .error .malformed

/-- The entries of a mapping. Those of mappings that are to be merged come first; their keys give
way to the mapping's own. -/
def Node.entries : Nat → List (Node × Node) → Except Error (List (Value × Value))
  | 0, _ => .error .malformed
  | fuel + 1, entries => do
    let merged ← (entries.filter fun e => e.1.tag = core "merge").mapM fun e =>
      match e.2 with
      | .mapping _ inner => Node.entries fuel inner
      | .sequence _ items => do
        let parts ← items.mapM fun (i : Node) =>
          match i with
          | .mapping _ inner => Node.entries fuel inner
          | _ => .error .malformed
        return parts.reverse.flatten
      | .scalar _ _ _ => .error .malformed
    let own ← (entries.filter fun e => e.1.tag ≠ core "merge").mapM fun e => do
      let key ← match e.1 with
        | .scalar _ _ text =>
          if e.1.tag = core "value" then .ok (.text text) else Node.value fuel e.1
        | _ => Node.value fuel e.1
      if isCollection key then .error .malformed
      else return (key, ← Node.value fuel e.2)
    return merged.flatten ++ own

end

/-- The value of a text that holds at most one document. -/
def load (text : List Char) : Except Error Value :=
  match parse? text with
  | none => .error .malformed
  | some none => .ok .null
  | some (some n) => Node.value (2 * text.length + 2) n

end ConventionLint.Data.Yaml
