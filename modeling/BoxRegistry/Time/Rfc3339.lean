import BoxRegistry.Text.Blank
import BoxRegistry.Time.Calendar
import BoxRegistry.Time.Moment

/-!
This module contains the text form of moments after RFC 3339. Writing uses the shortest of 0, 3, 6 or
9 fraction digits that is exact and the offset `Z`. Reading is lenient about white space in front of
the parts and about the number of digits of a part, takes any offset of less than a day, and refuses
dates that do not exist.
-/

namespace BoxRegistry.Time.Rfc3339

open BoxRegistry.Text

def padded (width n : Nat) : String :=
  let digits := toString n
  "".pushn '0' (width - digits.length) ++ digits

def yearText (year : Int) : String :=
  if 0 ≤ year ∧ year ≤ 9999 then padded 4 year.natAbs
  else if year < 0 then "-" ++ padded 4 year.natAbs
  else "+" ++ toString year.natAbs

def fractionText (nanos : Nat) : String :=
  if nanos = 0 then ""
  else if nanos % 1000000 = 0 then "." ++ padded 3 (nanos / 1000000)
  else if nanos % 1000 = 0 then "." ++ padded 6 (nanos / 1000)
  else "." ++ padded 9 nanos

def render (m : Moment) : String :=
  let date := Date.ofDays (m.seconds / 86400)
  let second := (m.seconds % 86400).toNat
  let leap := m.nanos / 1000000000
  yearText date.year ++ "-" ++ padded 2 date.month ++ "-" ++ padded 2 date.day ++ "T"
    ++ padded 2 (second / 3600) ++ ":" ++ padded 2 (second / 60 % 60) ++ ":"
    ++ padded 2 (second % 60 + leap) ++ fractionText (m.nanos % 1000000000) ++ "Z"

def number? (most : Nat) (cs : List Char) : Option (Nat × List Char) :=
  let ds := (cs.take most).takeWhile Char.isDigit
  if ds.isEmpty then none
  else some (ds.foldl (fun n c => n * 10 + (c.toNat - '0'.toNat)) 0, cs.drop ds.length)

def year? (cs : List Char) : Option (Int × List Char) :=
  match dropBlanks cs with
  | '-' :: rest => (number? rest.length rest).map fun (n, rest) => (-(n : Int), rest)
  | '+' :: rest => (number? rest.length rest).map fun (n, rest) => ((n : Int), rest)
  | rest => (number? 4 rest).map fun (n, rest) => ((n : Int), rest)

def part? (cs : List Char) : Option (Nat × List Char) :=
  number? 2 (dropBlanks cs)

def separator? (c : Char) (cs : List Char) : Option (List Char) :=
  match dropBlanks cs with
  | d :: rest => if d = c then some rest else none
  | [] => none

def clockMark? : List Char → Option (List Char)
  | 'T' :: rest | 't' :: rest | ' ' :: rest => some rest
  | _ => none

/--
The fraction of a second in nanoseconds. Digits after the ninth are ignored.
-/
def fraction? : List Char → Option (Nat × List Char)
  | '.' :: rest => do
    let (n, after) ← number? 9 rest
    let count := rest.length - after.length
    return (n * Nat.pow 10 (9 - count), after.dropWhile Char.isDigit)
  | rest => some (0, rest)

def twoDigits? : List Char → Option (Nat × List Char)
  | a :: b :: rest =>
    if a.isDigit && b.isDigit then
      some ((a.toNat - '0'.toNat) * 10 + (b.toNat - '0'.toNat), rest)
    else
      none
  | _ => none

def clockOffset? (cs : List Char) : Option (Nat × List Char) := do
  let (hours, rest) ← twoDigits? cs
  let rest := rest.dropWhile fun c => c = ':' || isBlankChar c
  let (minutes, rest) ← twoDigits? rest
  if minutes < 60 then some (hours * 3600 + minutes * 60, rest) else none

def offset? : List Char → Option (Int × List Char)
  | 'Z' :: rest | 'z' :: rest => some (0, rest)
  | '+' :: rest => (clockOffset? rest).map fun (n, rest) => ((n : Int), rest)
  | '-' :: rest | '−' :: rest => (clockOffset? rest).map fun (n, rest) => (-(n : Int), rest)
  | a :: b :: c :: rest =>
    if [a, b, c].map Char.toUpper = ['U', 'T', 'C'] then some (0, rest) else none
  | _ => none

def yearRange : Int × Int := (-262143, 262142)

def yearAllowed (year : Int) : Bool :=
  yearRange.1 ≤ year && year ≤ yearRange.2

def date? (cs : List Char) : Option (Date × List Char) := do
  let (year, cs) ← year? cs
  let cs ← separator? '-' cs
  let (month, cs) ← part? cs
  let cs ← separator? '-' cs
  let (day, cs) ← part? cs
  return ({ year, month, day }, cs)

structure Clock where
  hour : Nat
  minute : Nat
  second : Nat
  nanos : Nat

def Clock.exists? (clock : Clock) : Bool :=
  clock.hour < 24 && clock.minute < 60 && clock.second ≤ 60

def clock? (cs : List Char) : Option (Clock × List Char) := do
  let (hour, cs) ← part? cs
  let cs ← separator? ':' cs
  let (minute, cs) ← part? cs
  let cs ← separator? ':' cs
  let (second, cs) ← part? cs
  let (nanos, cs) ← fraction? cs
  return ({ hour, minute, second, nanos }, cs)

/--
The moment a date, a time of day and an offset name. A sixtieth second is a leap second.
-/
def moment (date : Date) (clock : Clock) (offset : Int) : Moment where
  seconds := date.toDays * 86400
    + (clock.hour * 3600 + clock.minute * 60 + (min clock.second 59 : Nat) : Int) - offset
  nanos := if clock.second = 60 then clock.nanos + 1000000000 else clock.nanos

def parse? (text : String) : Option Moment := do
  let (date, cs) ← date? text.toList
  let cs ← clockMark? cs
  let (clock, cs) ← clock? cs
  let (offset, cs) ← offset? (dropBlanks cs)
  if dropBlanks cs = [] ∧ yearAllowed date.year ∧ date.exists? ∧ clock.exists? ∧ offset.natAbs < 86400 then
    let moment := moment date clock offset
    if yearAllowed (Date.ofDays (moment.seconds / 86400)).year then some moment else none
  else
    none

end BoxRegistry.Time.Rfc3339
