import FieldProgram.Yaml.Fault
import FieldProgram.Yaml.Form

/-!
# Dates and times

A date is a year, a month and a day. A time may follow, down to millionths of a second, and the
distance of its zone. Times with zones are compared as instants.
-/

namespace FieldProgram.Yaml

open Numeral

/-- The time of a day. -/
structure DayTime where
  hour : Nat
  minute : Nat
  second : Nat
  /-- Millionths of a second. -/
  micro : Nat
  /-- Minutes that the zone is ahead, if the time has a zone. -/
  zone : Option Int
  deriving DecidableEq, Repr

/-- A date, and perhaps a time. -/
structure Timestamp where
  year : Nat
  month : Nat
  day : Nat
  time : Option DayTime
  deriving DecidableEq, Repr

namespace Timestamp

/-! ## Form -/

/-- The number of digits. -/
def numberOf (cs : List Char) : Nat := ofDigits 10 (cs.filterMap asciiDigit?)

/-- Reads one or two digits. -/
def oneOrTwo : List Char → Option (Nat × List Char)
  | a :: b :: cs =>
    if isDigit a then
      if isDigit b then some (numberOf [a, b], cs) else some (numberOf [a], b :: cs)
    else none
  | [a] => if isDigit a then some (numberOf [a], []) else none
  | [] => none

/-- Reads a colon and two digits. -/
def colonTwo : List Char → Option (Nat × List Char)
  | ':' :: a :: b :: cs => if isDigit a && isDigit b then some (numberOf [a, b], cs) else none
  | _ => none

/-- Reads the millionths behind a point, of which further digits are dropped. -/
def fraction : List Char → Nat × List Char
  | '.' :: cs =>
    let ds := (cs.takeWhile isDigit).take 6
    (numberOf (ds ++ List.replicate (6 - ds.length) '0'), cs.dropWhile isDigit)
  | cs => (0, cs)

def isGap (c : Char) : Bool := c == ' ' || c == '\t'

/-- Reads the zone up to the end. -/
def zone? (cs : List Char) : Option (Option Int) :=
  match cs with
  | [] => some none
  | cs =>
    match cs.dropWhile isGap with
    | ['Z'] => some (some 0)
    | sign :: cs =>
      if sign == '-' || sign == '+' then do
        let (hours, cs) ← oneOrTwo cs
        let (minutes, cs) ← if cs = [] then some (0, []) else colonTwo cs
        let distance : Int := hours * 60 + minutes
        if cs = [] then some (some (if sign == '-' then -distance else distance)) else none
      else none
    | [] => none

/-- Reads a time up to the end, behind the letter or the blanks that separate it from the date. -/
def time? (cs : List Char) : Option DayTime := do
  let (hour, cs) ← oneOrTwo cs
  let (minute, cs) ← colonTwo cs
  let (second, cs) ← colonTwo cs
  let (micro, cs) := fraction cs
  let zone ← zone? cs
  return ⟨hour, minute, second, micro, zone⟩

/-- The time behind what separates it from the date. -/
def separatedTime? : List Char → Option DayTime
  | c :: cs =>
    if c == 'T' || c == 't' then time? cs
    else if isGap c then time? (cs.dropWhile isGap)
    else none
  | [] => none

/-- The date and perhaps the time of a text. -/
def ofChars? : List Char → Option Timestamp
  | a :: b :: c :: d :: '-' :: cs =>
    if [a, b, c, d].all isDigit then do
      let year := numberOf [a, b, c, d]
      let (month, rest) ← oneOrTwo cs
      match rest with
      | '-' :: rest => do
        let (day, rest') ← oneOrTwo rest
        if rest' = [] then some ⟨year, month, day, none⟩
        else do
          let time ← separatedTime? rest'
          return ⟨year, month, day, some time⟩
      | _ => none
    else none
  | _ => none

/-- Whether a text without tag has the form of a date, of which month and day then have two digits,
or of a date and a time. -/
def isForm (cs : List Char) : Bool :=
  (ofChars? cs).any fun t => t.time.isSome || cs.length == 10

/-! ## Existence -/

def isLeap (year : Nat) : Bool := (year % 4 == 0 && year % 100 != 0) || year % 400 == 0

/-- The number of days of a month. -/
def daysIn (year month : Nat) : Nat :=
  if month = 2 then if isLeap year then 29 else 28
  else if [4, 6, 9, 11].contains month then 30
  else 31

/-- A span of minutes as days and the seconds beyond them. -/
def daysAndSeconds (minutes : Int) : Int × Int := (minutes / 1440, minutes % 1440 * 60)

/-- The display of a span of minutes. -/
def shownSpan (minutes : Int) : String :=
  let (days, seconds) := daysAndSeconds minutes
  let parts := (if days ≠ 0 then ["days=" ++ shortDecimal days] else []) ++
    (if seconds ≠ 0 then ["seconds=" ++ shortDecimal seconds] else [])
  "datetime.timedelta(" ++ (if parts = [] then "0" else ", ".intercalate parts) ++ ")"

/-- Why a time does not exist. -/
def DayTime.fault? (t : DayTime) : Option ValueFault :=
  if 24 ≤ t.hour then some .hourRange
  else if 60 ≤ t.minute then some .minuteRange
  else if 60 ≤ t.second then some .secondRange
  else none

/-- Why a date does not exist. -/
def dateFault? (t : Timestamp) : Option ValueFault :=
  if t.year = 0 then some (.yearRange t.year)
  else if t.month = 0 ∨ 12 < t.month then some .monthRange
  else if t.day = 0 ∨ daysIn t.year t.month < t.day then some .dayRange
  else none

/-- Why a zone does not exist: it is a day or more away. -/
def zoneFault? (t : Timestamp) : Option ValueFault :=
  match t.time.bind DayTime.zone with
  | none => none
  | some z => if 1440 ≤ z.natAbs then some (.zoneRange (shownSpan z)) else none

/-- Why a date or time does not exist, the zone looked at first. -/
def fault? (t : Timestamp) : Option ValueFault :=
  (zoneFault? t).or ((dateFault? t).or (t.time.bind DayTime.fault?))

/-! ## Display -/

/-- A number with zeros in front up to a width. -/
def padded (width n : Nat) : String :=
  let s := shortDecimal n
  String.ofList (List.replicate (width - s.length) '0') ++ s

def dateText (t : Timestamp) : String :=
  padded 4 t.year ++ "-" ++ padded 2 t.month ++ "-" ++ padded 2 t.day

/-- The distance of a zone as text. -/
def zoneText (z : Int) : String :=
  (if z < 0 then "-" else "+") ++ padded 2 (z.natAbs / 60) ++ ":" ++ padded 2 (z.natAbs % 60)

def text (t : Timestamp) : String :=
  match t.time with
  | none => dateText t
  | some d =>
    dateText t ++ " " ++ padded 2 d.hour ++ ":" ++ padded 2 d.minute ++ ":" ++ padded 2 d.second ++
      (if d.micro = 0 then "" else "." ++ padded 6 d.micro) ++ (d.zone.map zoneText).getD ""

/-- The display of a zone as a member. -/
def shownZone (z : Int) : String :=
  "tzinfo=" ++
    if z = 0 then "datetime.timezone.utc" else "datetime.timezone(" ++ shownSpan z ++ ")"

/-- The parts of a display: zeros at the end, of seconds and their millionths, are left out. -/
def shownParts (t : Timestamp) (d : DayTime) : List Nat :=
  [t.year, t.month, t.day, d.hour, d.minute] ++
    if d.micro ≠ 0 then [d.second, d.micro] else if d.second ≠ 0 then [d.second] else []

def shown (t : Timestamp) : String :=
  match t.time with
  | none =>
    "datetime.date(" ++ ", ".intercalate ([t.year, t.month, t.day].map fun n => toString n) ++ ")"
  | some d =>
    "datetime.datetime(" ++ ", ".intercalate
      ((shownParts t d).map (fun n => toString n) ++ (d.zone.map shownZone).toList) ++ ")"

/-! ## Instants -/

/-- The number of days of the months of a year before a month. -/
def daysBeforeMonth (year month : Nat) : Nat :=
  (List.range (month - 1)).foldl (fun days m => days + daysIn year (m + 1)) 0

/-- The number of days of the years before a year. -/
def daysBeforeYear (year : Nat) : Nat :=
  let y := year - 1
  y * 365 + y / 4 - y / 100 + y / 400

/-- Millionths of a second up to a time with a zone, counted from the year one. -/
def instant? (t : Timestamp) : Option Int := do
  let d ← t.time
  let zone ← d.zone
  let days : Int := daysBeforeYear t.year + daysBeforeMonth t.year t.month + t.day
  let seconds := ((days * 24 + d.hour) * 60 + d.minute - zone) * 60 + d.second
  return seconds * 1000000 + d.micro

end Timestamp

end FieldProgram.Yaml
