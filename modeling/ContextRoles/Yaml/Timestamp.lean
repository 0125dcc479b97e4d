import ContextRoles.Lexeme.Number

/-! # Timestamps

A date, or a date and a time of day with an optional fraction and an optional offset. Whether such a
day and such a time exist is checked when the timestamp is used as a value.
-/

namespace ContextRoles.Yaml

open Lexeme (digitsValue)

structure TimeOfDay where
  hour : Nat
  minute : Nat
  second : Nat
  /-- The distance from universal time in minutes, where it is given in hours. -/
  offset : Option Int := none
  deriving DecidableEq, Repr

structure Timestamp where
  year : Nat
  month : Nat
  day : Nat
  time : Option TimeOfDay := none
  deriving DecidableEq, Repr

namespace Timestamp

/-- At least `least` and at most `most` digits, and what follows them. -/
def digits? (least most : Nat) (text : List Char) : Option (Nat × List Char) :=
  let digits := (text.takeWhile fun c => '0' ≤ c && c ≤ '9').take most
  if least ≤ digits.length then some (digitsValue 10 digits, text.drop digits.length) else none

def expect? (c : Char) : List Char → Option (List Char)
  | [] => none
  | d :: rest => if d = c then some rest else none

def isBlank (c : Char) : Bool := c = ' ' || c = '\t'

def divider? : List Char → Option (List Char)
  | 'T' :: rest => some rest
  | 't' :: rest => some rest
  | text => if (text.head?.map isBlank).getD false then some (text.dropWhile isBlank) else none

def offset? (text : List Char) : Option (Option Int) :=
  match text with
  | [] => some none
  | ['Z'] => some none
  | sign :: rest => do
    let factor : Int ← if sign = '-' then some (-1) else if sign = '+' then some 1 else none
    let (hours, rest) ← digits? 1 2 rest
    if rest.isEmpty then some (some (factor * (hours * 60)))
    else
      let (minutes, rest) ← digits? 2 2 (← expect? ':' rest)
      if rest.isEmpty then some (some (factor * (hours * 60 + minutes))) else none

def skipFraction : List Char → List Char
  | '.' :: rest => rest.dropWhile fun c => '0' ≤ c && c ≤ '9'
  | text => text

def time? (text : List Char) : Option TimeOfDay := do
  let (hour, rest) ← digits? 1 2 text
  let (minute, rest) ← digits? 2 2 (← expect? ':' rest)
  let (second, rest) ← digits? 2 2 (← expect? ':' rest)
  let rest := skipFraction rest
  let zone := rest.dropWhile isBlank
  let offset ← if zone.isEmpty && !rest.isEmpty then none else offset? zone
  some { hour, minute, second, offset }

def parse? (text : List Char) : Option Timestamp := do
  let (year, rest) ← digits? 4 4 text
  let (month, rest) ← digits? 1 2 (← expect? '-' rest)
  let (day, rest) ← digits? 1 2 (← expect? '-' rest)
  if rest.isEmpty then some { year, month, day }
  else
    let time ← time? (← divider? rest)
    some { year, month, day, time := some time }

/-- Whether a text is a timestamp without being marked as one. A date alone has two digits for the
month and the day. -/
def isImplicit (text : List Char) : Bool :=
  match parse? text with
  | some t => t.time.isSome || text.length = 10
  | none => false

def isLeapYear (year : Nat) : Bool := year % 4 = 0 && (year % 100 ≠ 0 || year % 400 = 0)

def daysOfMonth (year month : Nat) : Nat :=
  if month = 2 then if isLeapYear year then 29 else 28
  else if month = 4 || month = 6 || month = 9 || month = 11 then 30
  else 31

end Timestamp

inductive CalendarFault where
  | year (value : Nat)
  | month
  | day
  | hour
  | minute
  | second
  /-- An offset of a day or more, in minutes. -/
  | offset (minutes : Int)
  deriving DecidableEq, Repr

namespace CalendarFault

def spanText (minutes : Int) : String :=
  let days := minutes.fdiv 1440
  let seconds := minutes.fmod 1440 * 60
  if seconds = 0 then s!"datetime.timedelta(days={days})"
  else s!"datetime.timedelta(days={days}, seconds={seconds})"

def message : CalendarFault → String
  | year value => s!"year {value} is out of range"
  | month => "month must be in 1..12"
  | day => "day is out of range for month"
  | hour => "hour must be in 0..23"
  | minute => "minute must be in 0..59"
  | second => "second must be in 0..59"
  | offset minutes =>
    "offset must be a timedelta strictly between -timedelta(hours=24) and timedelta(hours=24), " ++
      s!"not {spanText minutes}."

end CalendarFault

namespace Timestamp

def checkDate (t : Timestamp) : Except CalendarFault Unit :=
  if t.year = 0 then .error (.year t.year)
  else if t.month = 0 ∨ 12 < t.month then .error .month
  else if t.day = 0 ∨ daysOfMonth t.year t.month < t.day then .error .day
  else .ok ()

def checkTime (t : TimeOfDay) : Except CalendarFault Unit :=
  if 23 < t.hour then .error .hour
  else if 59 < t.minute then .error .minute
  else if 59 < t.second then .error .second
  else .ok ()

/-- Refuses a timestamp that does not exist. The offset is looked at first. -/
def check (t : Timestamp) : Except CalendarFault Unit :=
  match t.time with
  | none => t.checkDate
  | some time => do
    match time.offset with
    | some minutes => if 1440 ≤ minutes.natAbs then throw (.offset minutes)
    | none => pure ()
    t.checkDate
    checkTime time

end Timestamp

end ContextRoles.Yaml
