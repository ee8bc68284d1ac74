import BuildRules.Json.Parse
import BuildRules.Time.Timestamp

/-! ISO 8601 text of timestamps. Writing has one form; reading takes the basic and extended
forms, week dates, any separator between date and time, and offsets. -/
namespace BuildRules

namespace Timestamp

open Time

/-- A number with leading zeros. -/
def padded (width value : Nat) : List Char :=
  let digits := Nat.toDigits 10 value
  List.replicate (width - digits.length) '0' ++ digits

def offsetText (offset : Int) : List Char :=
  let magnitude := offset.natAbs
  let seconds := magnitude / 1000000
  let micros := magnitude % 1000000
  (if offset < 0 then '-' else '+') :: padded 2 (seconds / 3600) ++
    ':' :: padded 2 (seconds / 60 % 60) ++
    (if seconds % 60 = 0 ∧ micros = 0 then [] else ':' :: padded 2 (seconds % 60)) ++
    (if micros = 0 then [] else '.' :: padded 6 micros)

/-- Date, time and offset; the fraction has six digits and is left out where it is zero. -/
def isoChars (time : Timestamp) : List Char :=
  let day := time.wall / microsPerDay
  let inDay := time.wall % microsPerDay
  let seconds := inDay / 1000000
  let micros := inDay % 1000000
  let (month, dayOfMonth) := monthOfDay day
  padded 4 (yearOfDay day) ++ '-' :: padded 2 month ++ '-' :: padded 2 dayOfMonth ++
    'T' :: padded 2 (seconds / 3600) ++ ':' :: padded 2 (seconds / 60 % 60) ++
    ':' :: padded 2 (seconds % 60) ++
    (if micros = 0 then [] else '.' :: padded 6 micros) ++
    (match time.offset with
      | none => []
      | some offset => offsetText offset)

def iso (time : Timestamp) : String := String.ofList time.isoChars

/-- The number written by exactly `count` digits, and the rest. -/
def digits? (count : Nat) (chars : List Char) : Option (Nat × List Char) :=
  let run := chars.take count
  if run.length = count ∧ run.all Char.isDigit then
    some (Json.decimalValue run, chars.drop count)
  else none

/-- Day on which the first week of a year begins: the Monday of the week with its first
Thursday. May lie in the year before. -/
private def firstMonday (year : Nat) : Int :=
  let first : Int := daysBeforeYear year
  let weekday := (daysBeforeYear year) % 7
  let monday := first - weekday
  if 3 < weekday then monday + 7 else monday

/-- Weeks of a year: 53 where it begins on a Thursday, or on a Wednesday in a leap year. -/
private def hasWeek53 (year : Nat) : Bool :=
  let weekday := (daysBeforeYear year) % 7
  weekday == 3 || (weekday == 2 && isLeap year)

/-- The day of a week date. -/
private def weekDate? (year week day : Nat) : Option Int :=
  if year = 0 then none
  else if week = 0 ∨ 53 < week ∨ (week = 53 ∧ !hasWeek53 year) then none
  else if day = 0 ∨ 7 < day then none
  else some (firstMonday year + (7 * (week - 1) + (day - 1) : Nat))

def calendarDate? (year month day : Nat) : Option Int :=
  if year = 0 ∨ month = 0 ∨ 12 < month ∨ day = 0 ∨ daysInMonth year month < day then none
  else some (dayNumber year month day)

/-- The day that a date text gives: `YYYY-MM-DD`, `YYYYMMDD`, `YYYY-Www-D`, `YYYYWwwD`, or a
week without a day, which is its Monday. -/
def date? (chars : List Char) : Option Int := do
  let (year, rest) ← digits? 4 chars
  let (extended, rest) :=
    match rest with
    | '-' :: more => (true, more)
    | _ => (false, rest)
  match rest with
  | 'W' :: more =>
    let (week, rest) ← digits? 2 more
    if rest.isEmpty then weekDate? year week 1
    else
      let rest ← if extended then
          (match rest with
            | '-' :: more => some more
            | _ => none)
        else some rest
      let (day, _) ← digits? 1 rest
      weekDate? year week day
  | _ =>
    let (month, rest) ← digits? 2 rest
    let rest ← if extended then
        (match rest with
          | '-' :: more => some more
          | _ => none)
      else some rest
    let (day, _) ← digits? 2 rest
    calendarDate? year month day

/-- How many characters the date takes. After a week it is not always clear where the time
begins: a hyphen before two digits is taken for the separator, and a run of digits is
divided so that those of the time make pairs. -/
def dateLength (chars : List Char) : Option Nat :=
  let isDigitAt (place : Nat) : Bool := (chars.getD place ' ').isDigit
  if chars.length = 7 then some 7
  else if chars.getD 4 ' ' == '-' then
    if chars.getD 5 ' ' == 'W' then
      if chars.getD 8 ' ' == '-' then
        if chars.length = 9 then none
        else if isDigitAt 10 then some 8 else some 10
      else some 8
    else some 10
  else if chars.getD 4 ' ' == 'W' then
    let stop := 7 + ((chars.drop 7).takeWhile Char.isDigit).length
    if stop < 9 then some stop else if stop % 2 = 0 then some 7 else some 8
  else some 8

/-- Hours, minutes, seconds and microseconds, and whether anything is left over. -/
structure Clock where
  hour : Nat
  minute : Nat
  second : Nat
  micro : Nat
  leftOver : Bool

/-- Digits of a fraction: six count, more are passed over. -/
def fraction? (hour minute second : Nat) (chars : List Char) : Option Clock := do
  let counted := min 6 chars.length
  let (value, rest) ← digits? counted chars
  let rest := rest.dropWhile Char.isDigit
  return ⟨hour, minute, second, value * Nat.pow 10 (6 - counted), !rest.isEmpty⟩

def isPoint (c : Char) : Bool := c == '.' || c == ','

/-- What follows two digits of a clock. `none` for a character that cannot stand there. -/
inductive Next where
  | stop (leftOver : Bool)
  | field (rest : List Char)
  | fraction (rest : List Char)

/-- A colon after the hours asks for one after the minutes. The character after a field is
left over where it is the last one. -/
def next? (colons : Bool) (chars : List Char) : Option Next :=
  match chars with
  | [] => some (.stop false)
  | [_] => some (.stop true)
  | c :: rest =>
    if colons && c == ':' then some (.field rest)
    else if isPoint c then some (.fraction rest)
    else if !colons then some (.field chars)
    else none

/-- A time text: `HH`, `HHMM`, `HHMMSS` or the same with colons, each with a fraction. -/
def clock? (chars : List Char) : Option Clock := do
  let (hour, rest) ← digits? 2 chars
  let colons := rest.head? == some ':'
  match ← next? colons rest with
  | .stop leftOver => return ⟨hour, 0, 0, 0, leftOver⟩
  | .fraction rest => fraction? hour 0 0 rest
  | .field rest =>
    let (minute, rest) ← digits? 2 rest
    match ← next? colons rest with
    | .stop leftOver => return ⟨hour, minute, 0, 0, leftOver⟩
    | .fraction rest => fraction? hour minute 0 rest
    | .field rest =>
      let (second, rest) ← digits? 2 rest
      match ← next? colons rest with
      | .stop leftOver => return ⟨hour, minute, second, 0, leftOver⟩
      | .fraction rest | .field rest => fraction? hour minute second rest

def isZoneMark (c : Char) : Bool := c == '+' || c == '-' || c == 'Z'

/-- Offset in microseconds of the text from its mark on. -/
def zone? (chars : List Char) : Option Int := do
  match chars with
  | 'Z' :: rest => if rest.isEmpty then some 0 else none
  | mark :: rest =>
    let clock ← clock? rest
    if clock.leftOver then none
    else
      let seconds := clock.hour * 3600 + clock.minute * 60 + clock.second
      let micros : Nat := if seconds = 0 then 0 else seconds * 1000000 + clock.micro
      if microsPerDay ≤ micros then none
      else some (if mark == '-' then -(micros : Int) else micros)
  | [] => none

/-- Microseconds of the day, and the offset if there is one. Where there is one, a single
character before its mark is passed over. -/
def time? (chars : List Char) : Option (Nat × Option Int) := do
  let clock ← clock? (chars.takeWhile (!isZoneMark ·))
  let zone := chars.dropWhile (!isZoneMark ·)
  if 23 < clock.hour ∨ 59 < clock.minute ∨ 59 < clock.second then none
  else
    let micros :=
      (clock.hour * 3600 + clock.minute * 60 + clock.second) * 1000000 + clock.micro
    if zone.isEmpty then (if clock.leftOver then none else some (micros, none))
    else return (micros, some (← zone? zone))

/-- The timestamp written by a text, if it is one. A date alone is its midnight. -/
def ofIso? (text : String) : Option Timestamp := do
  let chars := text.toList
  let length ← dateLength chars
  let day ← date? (chars.take length)
  match chars.drop length with
  | [] => ofWall? (day * microsPerDay) none
  | _ :: rest =>
    let (micros, offset) ← time? rest
    ofWall? (day * microsPerDay + micros) offset

end Timestamp
end BuildRules
