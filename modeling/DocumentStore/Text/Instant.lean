import DocumentStore.Text.Digits

/-! Instants as text, such as `2024-02-29T12:00:00.5+01:00`: a date and a time with its distance
from universal time. They are counted in milliseconds from the first of January 1970, and what is
less than a millisecond is cut off. -/

namespace DocumentStore.Text.Instant

def isLeap (year : Nat) : Bool :=
  (year % 4 == 0 && year % 100 != 0) || year % 400 == 0

def monthLengths (year : Nat) : List Nat :=
  [31, if isLeap year then 29 else 28, 31, 30, 31, 30, 31, 31, 30, 31, 30, 31]

/-- Days of the calendar before the first of January of a year. -/
def daysBeforeYear (year : Nat) : Int :=
  if year = 0 then -366
  else
    let y := year - 1
    365 * y + y / 4 - y / 100 + y / 400

def daysBeforeMonth (year month : Nat) : Nat :=
  ((monthLengths year).take (month - 1)).foldl (· + ·) 0

/-- Days from the first of January 1970. -/
def day? (year month day : Nat) : Option Int :=
  match (monthLengths year)[month - 1]? with
  | some length =>
    if 1 ≤ month ∧ 1 ≤ day ∧ day ≤ length then
      some (daysBeforeYear year - daysBeforeYear 1970 +
        daysBeforeMonth year month + (day - 1))
    else none
  | none => none

structure Date where
  year : Int
  month : Int
  day : Int
deriving DecidableEq

/-- The date of a day. Years are counted from the first of March, so that the day that only leap
years have comes last, and the calendar repeats after 146097 days. -/
def Date.ofDay (day : Int) : Date :=
  let n := day + 719468
  let inEra := n % 146097
  let year := (inEra - inEra / 1460 + inEra / 36524 - inEra / 146096) / 365
  let inYear := inEra - (365 * year + year / 4 - year / 100)
  let month := (5 * inYear + 2) / 153
  { year := year + n / 146097 * 400 + (if month < 10 then 0 else 1)
    month := if month < 10 then month + 3 else month - 9
    day := inYear - (153 * month + 2) / 5 + 1 }

def time? (hour minute second : Nat) : Option Int :=
  if hour < 24 ∧ minute < 60 ∧ second < 60 then some ((hour * 60 + minute) * 60 + second : Nat)
  else none

/-- A fraction of a second in whole nanoseconds, with the text after it. -/
def fraction? : List Char → Option (Nat × List Char)
  | '.' :: cs =>
    let digits := cs.takeWhile Char.isDigit
    if digits.isEmpty then none
    else some (natOfDigits ((digits ++ List.replicate 9 '0').take 9), cs.dropWhile Char.isDigit)
  | cs => some (0, cs)

/-- The distance from universal time in minutes. -/
def offset? : List Char → Option Int
  | ['Z'] => some 0
  | ['z'] => some 0
  | [sign, a, b, ':', c, d] => do
    let hours ← nat? [a, b]
    let minutes ← nat? [c, d]
    if 23 < hours ∨ 59 < minutes then none
    else if sign = '+' then some (hours * 60 + minutes : Nat)
    else if sign = '-' then some (-(hours * 60 + minutes : Nat))
    else none
  | _ => none

def secondsOfDay : Int := 86400

/-- Whether a second is the last one of a month in universal time, after which a leap second may
stand. -/
def endsMonth (second : Int) : Bool :=
  (second + 1) % secondsOfDay == 0 && (Date.ofDay ((second + 1) / secondsOfDay)).day == 1

def milliseconds (second : Int) (nanoseconds : Nat) : Int :=
  (second * 1000000000 + nanoseconds).tdiv 1000000

/-- Any character of one byte may stand between date and time. A leap second is the last nanosecond
before it. -/
def ofText? (text : String) : Option Int :=
  match text.toList with
  | a :: b :: c :: d :: '-' :: e :: f :: '-' :: g :: h :: separator ::
      i :: j :: ':' :: k :: l :: ':' :: m :: n :: rest => do
    if 0x80 ≤ separator.toNat then none
    let day ← day? (← nat? [a, b, c, d]) (← nat? [e, f]) (← nat? [g, h])
    let second ← nat? [m, n]
    let (nanoseconds, rest) ← fraction? rest
    let time ← time? (← nat? [i, j]) (← nat? [k, l]) (if second = 60 then 59 else second)
    let instant := day * secondsOfDay + time - (← offset? rest) * 60
    if second ≠ 60 then some (milliseconds instant nanoseconds)
    else if endsMonth instant then some (milliseconds instant 999999999)
    else none
  | _ => none

/-! ### Writing -/

def padded (width : Nat) (n : Nat) : String :=
  let digits := Nat.toDigits 10 n
  String.ofList (List.replicate (width - digits.length) '0' ++ digits)

def yearText (year : Int) : String :=
  (if year < 0 then "-" else if 9999 < year then "+" else "") ++ padded 4 year.natAbs

/-- Thousandths without the zeros at their end, but with one digit. -/
def fractionText (millisecond : Nat) : String :=
  if millisecond % 100 = 0 then padded 1 (millisecond / 100)
  else if millisecond % 10 = 0 then padded 2 (millisecond / 10)
  else padded 3 millisecond

/-- Date, time and distance from universal time, such as `1970-01-01 0:00:00.5 +00:00:00`. -/
def text (milliseconds : Int) : String :=
  let second := milliseconds / 1000
  let date := Date.ofDay (second / secondsOfDay)
  let time := (second % secondsOfDay).toNat
  yearText date.year ++ "-" ++ padded 2 date.month.toNat ++ "-" ++ padded 2 date.day.toNat ++ " " ++
    toString (time / 3600) ++ ":" ++ padded 2 (time / 60 % 60) ++ ":" ++ padded 2 (time % 60) ++
    "." ++ fractionText (milliseconds % 1000).toNat ++ " +00:00:00"

end DocumentStore.Text.Instant
