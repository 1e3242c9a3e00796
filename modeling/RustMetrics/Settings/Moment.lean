/-! Days of the calendar and moments of a day, as settings can have them. -/

namespace RustMetrics

structure Date where
  year : Nat
  month : Nat
  day : Nat
  deriving DecidableEq, Repr

namespace Date

def isLeap (year : Nat) : Bool := year % 4 = 0 && (year % 100 ≠ 0 || year % 400 = 0)

def daysIn (year month : Nat) : Nat :=
  if month = 2 then (if isLeap year then 29 else 28)
  else if [4, 6, 9, 11].contains month then 30
  else 31

/-- What is wrong with a date. -/
def problem? (d : Date) : Option String :=
  if d.year = 0 then some "year 0 is out of range"
  else if d.month = 0 || 12 < d.month then some "month must be in 1..12"
  else if d.day = 0 || daysIn d.year d.month < d.day then some "day is out of range for month"
  else none

/-- The number of the day, counted from the year one. -/
def number (d : Date) : Nat :=
  let y := d.year - 1
  y * 365 + y / 4 - y / 100 + y / 400 +
    ((List.range (d.month - 1)).map fun m => daysIn d.year (m + 1)).foldr (· + ·) 0 + d.day

/-- The numbers of a date, with commas. -/
def fields (d : Date) : String :=
  toString d.year ++ ", " ++ toString d.month ++ ", " ++ toString d.day

/-- A date as messages show it. -/
def shown (d : Date) : String := "datetime.date(" ++ d.fields ++ ")"

end Date

/-- A moment of a day. `zone` is how many minutes its place is ahead, if that is known. -/
structure Moment where
  date : Date
  hour : Nat
  minute : Nat
  second : Nat
  micro : Nat
  zone : Option Int
  deriving DecidableEq, Repr

namespace Moment

/-- A span of minutes as messages show it: whole days, and the seconds that are left. -/
def shownSpan (minutes : Int) : String :=
  let day : Int := 24 * 60
  let days := minutes.fdiv day
  let seconds := minutes.fmod day * 60
  "datetime.timedelta(" ++ ", ".intercalate
    ((if days = 0 then [] else ["days=" ++ toString days]) ++
      (if seconds = 0 then [] else ["seconds=" ++ toString seconds])) ++ ")"

/-- A zone is less than a day away. -/
def zoneProblem? (zone : Int) : Option String :=
  if zone.natAbs < 24 * 60 then none
  else some ("offset must be a timedelta strictly between -timedelta(hours=24) and " ++
    "timedelta(hours=24), not " ++ shownSpan zone ++ ".")

def timeProblem? (m : Moment) : Option String :=
  if 23 < m.hour then some "hour must be in 0..23"
  else if 59 < m.minute then some "minute must be in 0..59"
  else if 59 < m.second then some "second must be in 0..59"
  else none

/-- What is wrong with a moment: first its zone, then its date, then its time. -/
def problem? (m : Moment) : Option String :=
  m.zone.bind zoneProblem? <|> m.date.problem? <|> m.timeProblem?

/-- The seconds since the year one, at the place that zones are counted from. -/
def instant (m : Moment) (zone : Int) : Int :=
  (((m.date.number * 24 + m.hour) * 60 + m.minute : Nat) - zone) * 60 + m.second

/-- Whether two moments are the same. One with a zone is never one without. -/
def isSame (m n : Moment) : Bool :=
  match m.zone, n.zone with
  | some a, some b => m.instant a == n.instant b && m.micro == n.micro
  | none, none => m == n
  | _, _ => false

def shownZone (zone : Int) : String :=
  if zone = 0 then "datetime.timezone.utc" else "datetime.timezone(" ++ shownSpan zone ++ ")"

/-- A moment as messages show it. Seconds are left out if nothing follows them. -/
def shown (m : Moment) : String :=
  let seconds :=
    if m.micro ≠ 0 then ", " ++ toString m.second ++ ", " ++ toString m.micro
    else if m.second ≠ 0 then ", " ++ toString m.second
    else ""
  "datetime.datetime(" ++ m.date.fields ++ ", " ++ toString m.hour ++ ", " ++ toString m.minute ++
    seconds ++ (m.zone.map fun z => ", tzinfo=" ++ shownZone z).getD "" ++ ")"

end Moment

end RustMetrics
