import ConventionLint.Data.Json.Reader

/-! Dates and times of YAML scalars. -/
namespace ConventionLint.Data.Yaml

/-- Minutes ahead of universal time. -/
abbrev Offset := Int

structure TimeOfDay where
  hour : Nat
  minute : Nat
  second : Nat
  microsecond : Nat
  offset : Option Offset

structure Timestamp where
  year : Nat
  month : Nat
  day : Nat
  time : Option TimeOfDay

/-- Why digits are no date. -/
inductive TimestampError where
  | year (n : Nat)
  | month
  | day
  | hour
  | minute
  | second
  | offset
deriving DecidableEq

def TimestampError.message : TimestampError → String
  | year n => s!"year {n} is out of range"
  | month => "month must be in 1..12"
  | day => "day is out of range for month"
  | hour => "hour must be in 0..23"
  | minute => "minute must be in 0..59"
  | second => "second must be in 0..59"
  | offset => "offset must be a timedelta strictly between -timedelta(hours=24) and "
      ++ "timedelta(hours=24)"

namespace Timestamp

/-- From `least` to `most` digits, as many as there are. -/
def digits? (least most : Nat) (cs : List Char) : Option (Nat × Nat × List Char) :=
  let ds := (cs.take most).takeWhile Char.isDigit
  if least ≤ ds.length then some (Json.digitsValue ds, ds.length, cs.drop ds.length) else none

def skip? (c : Char) : List Char → Option (List Char)
  | x :: r => if x = c then some r else none
  | [] => none

def isSpace (c : Char) : Bool := c = ' ' || c = '\t'

/-- The first six digits of a fraction, with zeros for those that are missing. -/
def microseconds (ds : List Char) : Nat :=
  Json.digitsValue (ds.take 6 ++ List.replicate (6 - ds.length) '0')

def offset? : List Char → Option (Option Offset)
  | [] => some none
  | ['Z'] => some (some 0)
  | sign :: r =>
    if sign = '+' || sign = '-' then do
      let (hours, _, r) ← digits? 1 2 r
      let minutes ← match r with
        | [] => some 0
        | _ => do
          let (m, _, r) ← digits? 2 2 (← skip? ':' r)
          if r.isEmpty then some m else none
      let n : Int := hours * 60 + minutes
      return some (if sign = '-' then -n else n)
    else none

def time? (cs : List Char) : Option TimeOfDay := do
  let (hour, _, r) ← digits? 1 2 cs
  let (minute, _, r) ← digits? 2 2 (← skip? ':' r)
  let (second, _, r) ← digits? 2 2 (← skip? ':' r)
  let (fraction, r) := match r with
    | '.' :: r => (r.takeWhile Char.isDigit, r.dropWhile Char.isDigit)
    | r => ([], r)
  let rest := r.dropWhile isSpace
  let offset ← offset? rest
  if offset.isNone && r ≠ [] then none
  else return ⟨hour, minute, second, microseconds fraction, offset⟩

/-- What stands between a date and a time. -/
def afterDate? : List Char → Option (List Char)
  | c :: r =>
    if c = 'T' || c = 't' then some r
    else if isSpace c then some (r.dropWhile isSpace)
    else none
  | [] => none

/-- A date or a date with a time. A date alone has two digits for month and day; `strict` says that
this is asked for. -/
def read? (strict : Bool) (cs : List Char) : Option Timestamp := do
  let (year, _, r) ← digits? 4 4 cs
  let (month, monthWidth, r) ← digits? 1 2 (← skip? '-' r)
  let (day, dayWidth, r) ← digits? 1 2 (← skip? '-' r)
  if r.isEmpty then
    if strict && (monthWidth ≠ 2 || dayWidth ≠ 2) then none
    else return ⟨year, month, day, none⟩
  else return ⟨year, month, day, some (← time? (← afterDate? r))⟩

def daysIn (year month : Nat) : Nat :=
  if month = 2 then
    if year % 4 = 0 ∧ (year % 100 ≠ 0 ∨ year % 400 = 0) then 29 else 28
  else if month = 4 ∨ month = 6 ∨ month = 9 ∨ month = 11 then 30 else 31

/-- What is wrong with a date, the greatest unit first. -/
def fault? (t : Timestamp) : Option TimestampError :=
  if (t.time.bind (·.offset)).any fun o => o.natAbs ≥ 24 * 60 then some .offset
  else if t.year = 0 then some (.year 0)
  else if t.month = 0 ∨ 12 < t.month then some .month
  else if t.day = 0 ∨ daysIn t.year t.month < t.day then some .day
  else t.time.bind fun x =>
    if 23 < x.hour then some .hour
    else if 59 < x.minute then some .minute
    else if 59 < x.second then some .second
    else none

def padded (width n : Nat) : String :=
  let ds := toString n
  String.ofList (List.replicate (width - ds.length) '0') ++ ds

def offsetText (o : Offset) : String :=
  (if o < 0 then "-" else "+") ++ padded 2 (o.natAbs / 60) ++ ":" ++ padded 2 (o.natAbs % 60)

def plain (t : Timestamp) : String :=
  let date := padded 4 t.year ++ "-" ++ padded 2 t.month ++ "-" ++ padded 2 t.day
  match t.time with
  | none => date
  | some x =>
    date ++ " " ++ padded 2 x.hour ++ ":" ++ padded 2 x.minute ++ ":" ++ padded 2 x.second
      ++ (if x.microsecond = 0 then "" else "." ++ padded 6 x.microsecond)
      ++ (x.offset.elim "" offsetText)

/-- An offset in days and seconds, of which only the days are below zero. -/
def zoneText (o : Offset) : String :=
  if o = 0 then "datetime.timezone.utc"
  else if o < 0 then s!"datetime.timezone(datetime.timedelta(days=-1, seconds={86400 + o * 60}))"
  else s!"datetime.timezone(datetime.timedelta(seconds={o * 60}))"

def shown (t : Timestamp) : String :=
  let date := [t.year, t.month, t.day]
  match t.time with
  | none => "datetime.date(" ++ ", ".intercalate (date.map toString) ++ ")"
  | some x =>
    let small := if x.microsecond ≠ 0 then [x.second, x.microsecond]
      else if x.second ≠ 0 then [x.second] else []
    let parts := (date ++ [x.hour, x.minute] ++ small).map toString
    let zone := x.offset.elim [] fun o => ["tzinfo=" ++ zoneText o]
    "datetime.datetime(" ++ ", ".intercalate (parts ++ zone) ++ ")"

end Timestamp

end ConventionLint.Data.Yaml
