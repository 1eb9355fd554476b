/-!
Points in time, and their RFC 3339 texts.

A timestamp is an instant, counted from the start of 1970 in UTC, with the offset of the clock that
shows it. `Timestamp.parse?` accepts real calendar dates only, and a second 60 only where a leap
second can be; `Timestamp.text` falls back to plain seconds where RFC 3339 has no text.
-/
namespace StateCheck
set_option autoImplicit false

/-! ## Calendar -/

namespace Calendar

def isLeapYear (year : Int) : Bool := year % 4 == 0 && (year % 100 != 0 || year % 400 == 0)

/-- The number of days of a month; zero for a month that does not exist. -/
def monthLength (year : Int) (month : Nat) : Nat :=
  match month with
  | 1 | 3 | 5 | 7 | 8 | 10 | 12 => 31
  | 4 | 6 | 9 | 11 => 30
  | 2 => if isLeapYear year then 29 else 28
  | _ => 0

/-- The days from the first day of 1970 to a date. Years are counted from March, so that a leap day
ends its year; 400 years have 146097 days. -/
def daysOfDate (year : Int) (month day : Nat) : Int :=
  let y := if month ≤ 2 then year - 1 else year
  let era := Int.fdiv y 400
  let yearOfEra := y - era * 400
  let monthFromMarch : Int := if month ≤ 2 then month + 9 else (month : Int) - 3
  let dayOfYear := (153 * monthFromMarch + 2) / 5 + day - 1
  let dayOfEra := yearOfEra * 365 + yearOfEra / 4 - yearOfEra / 100 + dayOfYear
  era * 146097 + dayOfEra - 719468

/-- The date of a number of days from the first day of 1970. -/
def dateOfDays (days : Int) : Int × Nat × Nat :=
  let z := days + 719468
  let era := Int.fdiv z 146097
  let dayOfEra := z - era * 146097
  let yearOfEra := (dayOfEra - dayOfEra / 1460 + dayOfEra / 36524 - dayOfEra / 146096) / 365
  let dayOfYear := dayOfEra - (365 * yearOfEra + yearOfEra / 4 - yearOfEra / 100)
  let monthFromMarch := (5 * dayOfYear + 2) / 153
  let day := dayOfYear - (153 * monthFromMarch + 2) / 5 + 1
  let month := if monthFromMarch < 10 then monthFromMarch + 3 else monthFromMarch - 9
  let year := yearOfEra + era * 400
  (if month ≤ 2 then year + 1 else year, month.toNat, day.toNat)

end Calendar

/-- An instant in seconds and nanoseconds from the start of 1970 in UTC, and an offset from UTC in
seconds. -/
structure Timestamp where
  seconds : Int
  nanos : Nat := 0
  offset : Int := 0
deriving DecidableEq, Inhabited, Repr

namespace Timestamp

def cmp (a b : Timestamp) : Ordering :=
  (compare a.seconds b.seconds).then (compare a.nanos b.nanos)

/-! ## Reading -/

/-- A number of exactly `width` decimal digits, with the characters after it. -/
def digits? : Nat → List Char → Nat → Option (Nat × List Char)
  | 0, cs, n => some (n, cs)
  | width + 1, c :: cs, n =>
    if c.isDigit then digits? width cs (n * 10 + (c.toNat - '0'.toNat)) else none
  | _ + 1, [], _ => none

def after? (c : Char) (cs : List Char) : Option (List Char) :=
  match cs with
  | d :: rest => if d = c then some rest else none
  | [] => none

/-- A fraction of a second in nanoseconds: a point and at least one digit, of which nine count. -/
def fraction? (cs : List Char) : Option (Nat × List Char) :=
  match cs with
  | '.' :: rest =>
    let digits := rest.takeWhile Char.isDigit
    if digits.isEmpty then none
    else
      let nine := (digits ++ List.replicate 9 '0').take 9
      let nanos := nine.foldl (fun n c => n * 10 + (c.toNat - '0'.toNat)) 0
      some (nanos, rest.dropWhile Char.isDigit)
  | cs => some (0, cs)

/-- An offset in seconds, up to the end of the text. -/
def offset? (cs : List Char) : Option Int :=
  match cs with
  | ['Z'] | ['z'] => some 0
  | sign :: rest => do
    let negative ← if sign = '+' then some false else if sign = '-' then some true else none
    let (hours, rest) ← digits? 2 rest 0
    let rest ← after? ':' rest
    let (minutes, rest) ← digits? 2 rest 0
    if 23 < hours ∨ 59 < minutes ∨ rest ≠ [] then none
    else
      let n : Int := hours * 3600 + minutes * 60
      some (if negative then -n else n)
  | [] => none

/-- Whether the second after this instant starts a month in UTC. -/
def endsMonth (seconds : Int) : Bool :=
  Int.fmod seconds 86400 == 86399 && (Calendar.dateOfDays (Int.fdiv seconds 86400 + 1)).2.2 == 1

/-- The timestamp that an RFC 3339 text spells. Any one-byte character may stand between date and
time; a second 60 stands for the last nanosecond before it. -/
def parse? (text : String) : Option Timestamp := do
  let (year, rest) ← digits? 4 text.toList 0
  let (month, rest) ← digits? 2 (← after? '-' rest) 0
  let (day, rest) ← digits? 2 (← after? '-' rest) 0
  let rest ← match rest with
    | c :: rest => if c.toNat < 128 then some rest else none
    | [] => none
  let (hour, rest) ← digits? 2 rest 0
  let (minute, rest) ← digits? 2 (← after? ':' rest) 0
  let (second, rest) ← digits? 2 (← after? ':' rest) 0
  let (nanos, rest) ← fraction? rest
  let offset ← offset? rest
  if day = 0 ∨ Calendar.monthLength year month < day ∨ 23 < hour ∨ 59 < minute ∨ 60 < second then
    none
  else
    let leap := second = 60
    let second := if leap then 59 else second
    let nanos := if leap then 999999999 else nanos
    let local_ := Calendar.daysOfDate year month day * 86400 + hour * 3600 + minute * 60 + second
    let seconds := local_ - offset
    if leap ∧ !endsMonth seconds then none else some { seconds, nanos, offset }

/-! ## Writing -/

def padded (width n : Nat) : String :=
  let text := toString n
  String.ofList (List.replicate (width - text.length) '0') ++ text

/-- The fraction of a second, without trailing zeros and empty when it is zero. -/
def fractionText (nanos : Nat) : String :=
  if nanos = 0 then ""
  else
    let digits := (padded 9 nanos).toList
    "." ++ String.ofList (digits.reverse.dropWhile (· == '0')).reverse

/-- The offset: `Z` for none, else a sign, hours and minutes. -/
def offsetText (offset : Int) : String :=
  if offset = 0 then "Z"
  else
    let minutes := offset.natAbs / 60
    (if offset < 0 then "-" else "+") ++ padded 2 (minutes / 60) ++ ":" ++ padded 2 (minutes % 60)

/-- The RFC 3339 text at the timestamp's own offset, or the seconds of the instant where there is
none: outside the years 0 to 9999, or with an offset of odd seconds or a day and more. -/
def text (t : Timestamp) : String :=
  let shown := t.seconds + t.offset
  let (year, month, day) := Calendar.dateOfDays (Int.fdiv shown 86400)
  if year < 0 ∨ 9999 < year ∨ t.offset.natAbs % 60 ≠ 0 ∨ 86400 ≤ t.offset.natAbs then
    toString t.seconds
  else
    let second := (Int.fmod shown 86400).toNat
    padded 4 year.toNat ++ "-" ++ padded 2 month ++ "-" ++ padded 2 day ++ "T" ++
      padded 2 (second / 3600) ++ ":" ++ padded 2 (second / 60 % 60) ++ ":" ++
      padded 2 (second % 60) ++ fractionText t.nanos ++ offsetText t.offset

end Timestamp
end StateCheck
