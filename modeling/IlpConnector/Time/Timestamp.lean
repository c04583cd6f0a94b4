import IlpConnector.Time.Instant
import IlpConnector.Time.Calendar
import IlpConnector.Text.Basic

/-!
# Timestamps

The expiry of a packet travels as `YYYYMMDDHHMMSSmmm`: year, month, day, hour, minute, second and
millisecond, in Coordinated Universal Time.  `Timestamp.write` makes that form, and
`Timestamp.read` reads it and more: blanks before a field, fields with fewer digits, a signed year
of any width, and the second 60, which is the first second of the next minute.

`Timestamp.display` is the form with separators that is shown to people.
-/

namespace IlpConnector.Timestamp

/-- The lowest `width` decimal digits of a number, the most significant first. -/
def digits : (width n : Nat) → List Char
  | 0, _ => []
  | width + 1, n => Char.ofNat (48 + n / Nat.pow 10 width % 10) :: digits width n

/-- Years of four digits stand for themselves; all others have a sign, and more digits if they need
them. -/
def yearDigits (year : Int) : List Char :=
  if 0 ≤ year ∧ year ≤ 9999 then digits 4 year.toNat
  else
    (if year < 0 then '-' else '+') ::
      (if year.natAbs < 10000 then digits 4 year.natAbs else Nat.toDigits 10 year.natAbs)

/-- An instant on the calendar and the clock. -/
structure Fields where
  date : Date
  hour : Nat
  minute : Nat
  second : Nat
  nanos : Nat
deriving DecidableEq

def Fields.ofInstant (t : Instant) : Fields :=
  let ofDay := (t.seconds % 86400).toNat
  ⟨Date.ofDayNumber (t.seconds / 86400), ofDay / 3600, ofDay / 60 % 60, ofDay % 60,
    t.subsecond.toNat⟩

def Fields.toInstant (f : Fields) : Instant :=
  .ofSeconds (f.date.dayNumber * 86400 + f.hour * 3600 + f.minute * 60 + f.second) f.nanos

/-- The form that packets carry, as characters. -/
def writeChars (t : Instant) : List Char :=
  let f := Fields.ofInstant t
  yearDigits f.date.year ++ digits 2 f.date.month ++ digits 2 f.date.day ++ digits 2 f.hour
    ++ digits 2 f.minute ++ digits 2 f.second ++ digits 3 (f.nanos / 1000000)

/-- The form that packets carry. -/
def write (t : Instant) : String :=
  String.ofList (writeChars t)

/-- The fraction of a second, in the fewest groups of three digits. -/
def fractionDigits (nanos : Nat) : List Char :=
  if nanos = 0 then []
  else if nanos % 1000000 = 0 then '.' :: digits 3 (nanos / 1000000)
  else if nanos % 1000 = 0 then '.' :: digits 6 (nanos / 1000)
  else '.' :: digits 9 nanos

/-- The form with separators, for people. -/
def display (t : Instant) : String :=
  let f := Fields.ofInstant t
  String.ofList (yearDigits f.date.year ++ '-' :: digits 2 f.date.month ++ '-' :: digits 2 f.date.day
    ++ 'T' :: digits 2 f.hour ++ ':' :: digits 2 f.minute ++ ':' :: digits 2 f.second
    ++ fractionDigits f.nanos ++ "+00:00".toList)

/-- Why a text is no timestamp. -/
inductive ReadError where
  | invalid
  | outOfRange
  | tooShort
  | tooLong
deriving DecidableEq, Repr

def ReadError.message : ReadError → String
  | .invalid => "input contains invalid characters"
  | .outOfRange => "input is out of range"
  | .tooShort => "premature end of input"
  | .tooLong => "trailing input"

/-- The number that at most `max` leading digits stand for, and the rest.  There are at least `min`
digits. -/
def number (min max : Nat) (cs : List Char) : Except ReadError (Nat × List Char) :=
  let run := (cs.take max).takeWhile Char.isDigit
  let width := cs.foldl (fun n c => n + c.utf8Size) 0
  if width < min then .error .tooShort
  else if run.length < min then .error .invalid
  else .ok (run.foldl (fun n c => n * 10 + (c.toNat - 48)) 0, cs.drop run.length)

/-- A field of at most `width` digits, after blanks, between two bounds. -/
def field (width low high : Nat) (cs : List Char) : Except ReadError (Nat × List Char) := do
  let (n, rest) ← number 1 width (cs.dropWhile Text.isBlank)
  if low ≤ n ∧ n ≤ high then return (n, rest) else throw .outOfRange

/-- The year: four digits at most, or a sign and any number of them. -/
def year (cs : List Char) : Except ReadError (Int × List Char) := do
  let (y, rest) ←
    match cs.dropWhile Text.isBlank with
    | '-' :: rest => (number 1 rest.length rest).map fun r => (-(r.1 : Int), r.2)
    | '+' :: rest => (number 1 rest.length rest).map fun r => ((r.1 : Int), r.2)
    | rest => (number 1 4 rest).map fun r => ((r.1 : Int), r.2)
  if -2147483648 ≤ y ∧ y ≤ 2147483647 then return (y, rest) else throw .outOfRange

/-- The years that a timestamp may be in. -/
def isYearInRange (y : Int) : Bool :=
  -262143 ≤ y && y ≤ 262142

/-- The instant that a text in the form of `write` stands for. -/
def read (s : String) : Except ReadError Instant := do
  let (y, cs) ← year s.toList
  let (mo, cs) ← field 2 1 12 cs
  let (d, cs) ← field 2 1 31 cs
  let (h, cs) ← field 2 0 23 cs
  let (mi, cs) ← field 2 0 59 cs
  let (sec, cs) ← field 2 0 60 cs
  let (ms, cs) ← number 3 3 cs
  unless cs.isEmpty do throw .tooLong
  let date : Date := ⟨y, mo, d⟩
  if isYearInRange y && date.isValid then
    return (Fields.mk date h mi sec (ms * 1000000)).toInstant
  else throw .outOfRange

end IlpConnector.Timestamp
