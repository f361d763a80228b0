import RestClient.Duration
import RestClient.Text.Blank
import RestClient.Text.Numeral

/-!
# Dates of HTTP

The three written forms of a date: `Sun, 06 Nov 1994 08:49:37 GMT`, the older
`Sunday, 06-Nov-94 08:49:37 GMT`, and `Sun Nov  6 08:49:37 1994`.  A date has to exist, to lie in
the years 1970 to 9999, and to fall on the weekday that it names.
-/

namespace RestClient

/-- A date and time of day; weekdays count from Monday, which is one. -/
structure Date where
  year : Nat
  month : Nat
  day : Nat
  hour : Nat
  minute : Nat
  second : Nat
  weekday : Nat
deriving DecidableEq

namespace Date

def isLeap (year : Nat) : Bool := year % 4 == 0 && (year % 100 != 0 || year % 400 == 0)

def monthLength (year month : Nat) : Nat :=
  match month with
  | 2 => if isLeap year then 29 else 28
  | 4 | 6 | 9 | 11 => 30
  | _ => 31

def leapDays (year : Nat) : Nat := (year - 1) / 4 - (year - 1) / 100 + (year - 1) / 400

def daysBefore (year month : Nat) : Nat :=
  (List.range (month - 1)).foldl (fun days m => days + monthLength year (m + 1)) 0

def dayNumber (d : Date) : Nat :=
  365 * (d.year - 1970) + (leapDays d.year - leapDays 1970) + daysBefore d.year d.month +
    (d.day - 1)

/-- The first day of 1970 was a Thursday. -/
def weekdayOf (days : Nat) : Nat := (days + 3) % 7 + 1

def isValid (d : Date) : Bool :=
  1970 ≤ d.year && d.year ≤ 9999 && 1 ≤ d.month && d.month ≤ 12 &&
    1 ≤ d.day && d.day ≤ monthLength d.year d.month &&
    d.hour < 24 && d.minute < 60 && d.second < 60 && d.weekday == weekdayOf d.dayNumber

def moment (d : Date) : Moment :=
  .ofSeconds (((d.dayNumber * 24 + d.hour) * 60 + d.minute) * 60 + d.second)

/-!
## Reading
-/

abbrev Scan (α : Type) := List Char -> Option (α × List Char)

def digits (n : Nat) : Scan Nat := fun s =>
  if (s.take n).length == n then (Numeral.nat? (s.take n)).map (·, s.drop n) else none

def exactly (text : String) : Scan Unit := fun s =>
  if text.toList.isPrefixOf s then some ((), s.drop text.toList.length) else none

/-- Reads one of the names, between two given texts, and says which one it is, counting from
one. -/
def name (before after : String) (names : List String) : Scan Nat := fun s =>
  (names.zipIdx 1).findSome? fun entry =>
    (exactly (before ++ entry.1 ++ after) s).map fun read => (entry.2, read.2)

def months : List String :=
  ["Jan", "Feb", "Mar", "Apr", "May", "Jun", "Jul", "Aug", "Sep", "Oct", "Nov", "Dec"]

def shortDays : List String := ["Mon", "Tue", "Wed", "Thu", "Fri", "Sat", "Sun"]

def longDays : List String :=
  ["Monday", "Tuesday", "Wednesday", "Thursday", "Friday", "Saturday", "Sunday"]

def clock : Scan (Nat × Nat × Nat) := fun s => do
  let (hour, s) ← digits 2 s
  let (_, s) ← exactly ":" s
  let (minute, s) ← digits 2 s
  let (_, s) ← exactly ":" s
  let (second, s) ← digits 2 s
  return ((hour, minute, second), s)

/-- Reads the form `Sun, 06 Nov 1994 08:49:37 GMT`. -/
def fixed? (s : List Char) : Option Date := do
  let (weekday, s) ← name "" ", " shortDays s
  let (day, s) ← digits 2 s
  let (month, s) ← name " " " " months s
  let (year, s) ← digits 4 s
  let (_, s) ← exactly " " s
  let ((hour, minute, second), s) ← clock s
  let (_, s) ← exactly " GMT" s
  if s.isEmpty then some { year, month, day, hour, minute, second, weekday } else none

/-- Reads the form `Sunday, 06-Nov-94 08:49:37 GMT`; years below 70 belong to the century of 2000.
Any character may stand between the date and the time. -/
def hyphenated? (s : List Char) : Option Date := do
  let (weekday, s) ← name "" ", " longDays s
  let (day, s) ← digits 2 s
  let (month, s) ← name "-" "-" months s
  let (year, s) ← digits 2 s
  let ((hour, minute, second), s) ← clock (s.drop 1)
  let (_, s) ← exactly " GMT" s
  let year := if year < 70 then year + 2000 else year + 1900
  if s.isEmpty then some { year, month, day, hour, minute, second, weekday } else none

/-- Reads the form `Sun Nov  6 08:49:37 1994`. -/
def plain? (s : List Char) : Option Date := do
  let (weekday, s) ← name "" " " shortDays s
  let (month, s) ← name "" " " months s
  let (day, s) ← match s with
    | ' ' :: s => digits 1 s
    | s => digits 2 s
  let (_, s) ← exactly " " s
  let ((hour, minute, second), s) ← clock s
  let (_, s) ← exactly " " s
  let (year, s) ← digits 4 s
  if s.isEmpty then some { year, month, day, hour, minute, second, weekday } else none

def ofText? (text : List Char) : Option Date :=
  let s := Blank.trim text
  match fixed? s <|> hyphenated? s <|> plain? s with
  | some d => if d.isValid then some d else none
  | none => none

end Date
end RestClient
