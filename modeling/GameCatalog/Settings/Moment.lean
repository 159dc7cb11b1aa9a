import GameCatalog.Text.Parser

/-!
# Dates and times

A moment is a date of the calendar, a time of the day, or a date and a time, which may say how far
they are off from universal time. Its fields are in range by construction. `Moment.text` writes a
moment in the one form that stands for it, `Moment.read?` takes one from the start of a text, and
`Moment.ofText?` reads a whole text, which may name the end of a day and offsets of a whole day.
-/

namespace GameCatalog

def isLeapYear (year : Nat) : Bool := year % 4 == 0 && (year % 100 != 0 || year % 400 == 0)

def daysInMonth (year month : Nat) : Nat :=
  if month = 2 then (if isLeapYear year then 29 else 28)
  else if month = 4 ∨ month = 6 ∨ month = 9 ∨ month = 11 then 30
  else 31

structure Date where
  year : Nat
  month : Nat
  day : Nat
  month_mem : 1 ≤ month ∧ month ≤ 12
  day_mem : 1 ≤ day ∧ day ≤ daysInMonth year month

structure TimeOfDay where
  hour : Nat
  minute : Nat
  second : Nat
  nanosecond : Nat
  hour_le : hour ≤ 24
  minute_lt : minute < 60
  second_le : second ≤ 60
  nanosecond_lt : nanosecond < 1000000000

inductive ClockOffset where
  | universal
  | minutes (n : Int)

inductive Moment where
  | onDate (date : Date)
  | atTime (time : TimeOfDay)
  | onDateAt (date : Date) (time : TimeOfDay) (offset : Option ClockOffset)

/-! ## Text -/

def paddedDigits (width n : Nat) : List Char :=
  let digits := Nat.toDigits 10 n
  List.replicate (width - digits.length) '0' ++ digits

def Date.text (date : Date) : List Char :=
  paddedDigits 4 date.year ++ '-' :: paddedDigits 2 date.month ++ '-' :: paddedDigits 2 date.day

def fractionText (nanosecond : Nat) : List Char :=
  if nanosecond = 0 then []
  else '.' :: ((paddedDigits 9 nanosecond).reverse.dropWhile (· = '0')).reverse

def TimeOfDay.text (time : TimeOfDay) : List Char :=
  paddedDigits 2 time.hour ++ ':' :: paddedDigits 2 time.minute ++ ':' ::
    paddedDigits 2 time.second ++ fractionText time.nanosecond

def ClockOffset.text : ClockOffset → List Char
  | .universal => ['Z']
  | .minutes n =>
      (if n < 0 then '-' else '+') :: paddedDigits 2 (n.natAbs / 60) ++ ':' ::
        paddedDigits 2 (n.natAbs % 60)

namespace Moment

open Text

def text : Moment → String
  | .onDate date => String.ofList date.text
  | .atTime time => String.ofList time.text
  | .onDateAt date time offset =>
      String.ofList (date.text ++ 'T' :: time.text ++ (offset.map ClockOffset.text).getD [])

/-! ## Reading -/

def digits? (count : Nat) (text : List Char) : Option (Nat × List Char) :=
  let digits := text.take count
  if digits.length = count ∧ digits.all Char.isDigit then
    some (Nat.ofDigitChars 10 digits 0, text.drop count)
  else none

def date? (text : List Char) : Option (Date × List Char) := do
  let (year, rest) ← digits? 4 text
  let rest ← after? ['-'] rest
  let (month, rest) ← digits? 2 rest
  let rest ← after? ['-'] rest
  let (day, rest) ← digits? 2 rest
  if h : (1 ≤ month ∧ month ≤ 12) ∧ 1 ≤ day ∧ day ≤ daysInMonth year month then
    some (⟨year, month, day, h.1, h.2⟩, rest)
  else none

/-- The nanoseconds in the digits after a point. Digits beyond the ninth are dropped; a point that
no digit follows is left where it is. -/
def fraction (text : List Char) : Nat × List Char :=
  match text with
  | '.' :: rest =>
      let digits := rest.takeWhile Char.isDigit
      let kept := digits.take 9
      if digits.isEmpty then (0, text)
      else (Nat.ofDigitChars 10 kept 0 * Nat.pow 10 (9 - kept.length), rest.drop digits.length)
  | _ => (0, text)

/-- Which times and offsets a reader takes: hours up to a last one, and some numbers of hours and
minutes. -/
structure ClockRange where
  lastHour : Nat
  isOffset : Nat → Nat → Bool
  lastHour_le : lastHour ≤ 24

def plainClock : ClockRange where
  lastHour := 23
  isOffset hours minutes := hours < 24 && minutes < 60
  lastHour_le := by decide

def wideClock : ClockRange where
  lastHour := 24
  isOffset hours minutes := hours * 60 + minutes ≤ 1440
  lastHour_le := by decide

def time? (clock : ClockRange) (text : List Char) : Option (TimeOfDay × List Char) := do
  let (hour, rest) ← digits? 2 text
  let rest ← after? [':'] rest
  let (minute, rest) ← digits? 2 rest
  let rest ← after? [':'] rest
  let (second, rest) ← digits? 2 rest
  let (nanosecond, rest) := fraction rest
  if h : hour ≤ clock.lastHour ∧ minute < 60 ∧ second ≤ 60 ∧ nanosecond < 1000000000 then
    some (⟨hour, minute, second, nanosecond, Nat.le_trans h.1 clock.lastHour_le, h.2.1, h.2.2.1,
      h.2.2.2⟩, rest)
  else none

def offset? (clock : ClockRange) : List Char → Option (ClockOffset × List Char)
  | [] => none
  | sign :: rest =>
      if sign = 'Z' ∨ sign = 'z' then some (.universal, rest)
      else if sign = '+' ∨ sign = '-' then do
        let (hours, rest) ← digits? 2 rest
        let rest ← after? [':'] rest
        let (minutes, rest) ← digits? 2 rest
        let size : Int := hours * 60 + minutes
        if clock.isOffset hours minutes then
          some (.minutes (if sign = '-' then -size else size), rest)
        else none
      else none

def timeAfter? (clock : ClockRange) : List Char → Option (TimeOfDay × List Char)
  | [] => none
  | c :: rest => if c = 'T' ∨ c = 't' ∨ c = ' ' then time? clock rest else none

def read? (text : List Char) : Option (Moment × List Char) :=
  match date? text with
  | none => (time? plainClock text).map fun (time, rest) => (.atTime time, rest)
  | some (date, rest) =>
      match timeAfter? plainClock rest with
      | none => some (.onDate date, rest)
      | some (time, rest) =>
          match offset? plainClock rest with
          | none => some (.onDateAt date time none, rest)
          | some (offset, rest) => some (.onDateAt date time (some offset), rest)

def ofText? (text : String) : Option Moment :=
  let chars := text.toList
  if chars[2]? = some ':' then (whole? (time? wideClock) chars).map .atTime
  else
    match date? chars with
    | none => none
    | some (date, []) => some (.onDate date)
    | some (date, rest) =>
        match timeAfter? wideClock rest with
        | none => none
        | some (time, []) => some (.onDateAt date time none)
        | some (time, rest) =>
            (whole? (offset? wideClock) rest).map fun offset => .onDateAt date time (some offset)

example : (read? "2024-02-29 07:05:00.50-00:30]".toList).map (fun (moment, rest) =>
    (moment.text, rest)) = some ("2024-02-29T07:05:00.5-00:30", [']']) := by decide +kernel

example : (read? "2023-02-29".toList).isNone := by decide +kernel

example : (ofText? "2024-01-01 24:00:00z").map text = some "2024-01-01T24:00:00Z" ∧
    (ofText? "07:32").isNone := by decide +kernel

end Moment

end GameCatalog
