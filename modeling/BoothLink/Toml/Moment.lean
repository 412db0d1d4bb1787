import BoothLink.Decimal.Digits

/-!
# Dates and times of day

A value of a configuration file may be a date, a time of day, or both with a blank or the letter T
between them; the latter may say how far its clock is ahead of universal time. Every part has a fixed
number of digits, and days that a month does not have are refused.

* `Date`, `TimeOfDay`, `Moment`.
* `Moment.read?`: the longest date or time at the front of a text.
-/

namespace BoothLink

structure Date where
  year : Nat
  month : Nat
  day : Nat
  deriving DecidableEq, Repr

/-- A time of day; second 60 is a leap second. -/
structure TimeOfDay where
  hour : Nat
  minute : Nat
  second : Nat
  nanosecond : Nat
  deriving DecidableEq, Repr

/-- A date, a time of day, or both. -/
structure Moment where
  date : Option Date
  time : Option TimeOfDay
  /-- How many minutes the clock is ahead of universal time, if that is said. -/
  offset : Option Int
  deriving DecidableEq, Repr

/-- How many days a month has. -/
def Date.daysIn (year month : Nat) : Nat :=
  if month = 2 then
    if year % 4 = 0 && (year % 100 ≠ 0 || year % 400 = 0) then 29 else 28
  else if month ∈ [4, 6, 9, 11] then 30
  else 31

namespace Moment

/-- A number between two bounds with a fixed count of digits, and the text after it. -/
def number? (count low high : Nat) (cs : List Char) : Option (Nat × List Char) :=
  let digits := cs.take count
  let n := Digits.value 10 digits
  if digits.length = count && digits.all (Digits.isDigit 10) && low ≤ n && n ≤ high then
    some (n, cs.drop count)
  else none

/-- A number behind a mark. -/
def after? (mark : Char) (count low high : Nat) : List Char → Option (Nat × List Char)
  | [] => none
  | c :: cs => if c = mark then number? count low high cs else none

def readDate? (cs : List Char) : Option (Date × List Char) := do
  let (year, cs) ← number? 4 0 9999 cs
  let (month, cs) ← after? '-' 2 1 12 cs
  let (day, cs) ← after? '-' 2 1 (Date.daysIn year month) cs
  return (⟨year, month, day⟩, cs)

/-- The nanoseconds that the digits of a fraction of a second spell; those after the ninth are
dropped. -/
def nanoseconds (digits : List Char) : Nat :=
  let kept := digits.take 9
  Digits.value 10 kept * Nat.pow 10 (9 - kept.length)

/-- Reads a fraction of a second if there is one. -/
def readFraction : List Char → Nat × List Char
  | '.' :: cs =>
    let digits := cs.takeWhile (Digits.isDigit 10)
    if digits.isEmpty then (0, '.' :: cs) else (nanoseconds digits, cs.drop digits.length)
  | cs => (0, cs)

def readTime? (cs : List Char) : Option (TimeOfDay × List Char) := do
  let (hour, cs) ← number? 2 0 23 cs
  let (minute, cs) ← after? ':' 2 0 59 cs
  let (second, cs) ← after? ':' 2 0 60 cs
  let (nanosecond, cs) := readFraction cs
  return (⟨hour, minute, second, nanosecond⟩, cs)

def readMinutes? (cs : List Char) : Option (Nat × List Char) := do
  let (hours, cs) ← number? 2 0 23 cs
  let (minutes, cs) ← after? ':' 2 0 59 cs
  return (hours * 60 + minutes, cs)

/-- Reads how far a clock is ahead of universal time. -/
def readOffset? : List Char → Option (Int × List Char)
  | [] => none
  | c :: cs =>
    if c = 'Z' || c = 'z' then some (0, cs)
    else if c = '+' then (readMinutes? cs).map fun (n, cs) => ((n : Int), cs)
    else if c = '-' then (readMinutes? cs).map fun (n, cs) => (-(n : Int), cs)
    else none

/-- Reads what may follow a date. -/
def afterDate (date : Date) (cs : List Char) : Moment × List Char :=
  match cs with
  | [] => (⟨some date, none, none⟩, cs)
  | c :: rest =>
    match if c = 'T' || c = 't' || c = ' ' then readTime? rest else none with
    | none => (⟨some date, none, none⟩, cs)
    | some (time, rest) =>
      match readOffset? rest with
      | none => (⟨some date, some time, none⟩, rest)
      | some (offset, rest) => (⟨some date, some time, some offset⟩, rest)

/-- Reads a date or a time at the front of a text. -/
def read? (cs : List Char) : Option (Moment × List Char) :=
  match readDate? cs with
  | some (date, rest) => some (afterDate date rest)
  | none => (readTime? cs).map fun (time, rest) => (⟨none, some time, none⟩, rest)

end Moment

end BoothLink
