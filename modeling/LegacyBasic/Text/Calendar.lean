/-!
Dates and times of day in text: which numbers make a date, and the readers that the date formats
are put together from.
-/

namespace LegacyBasic.Calendar

def isLeap (year : Nat) : Bool := year % 4 == 0 && (year % 100 != 0 || year % 400 == 0)

def daysIn (year month : Nat) : Nat :=
  if month = 2 then if isLeap year then 29 else 28
  else if month = 4 ∨ month = 6 ∨ month = 9 ∨ month = 11 then 30
  else 31

def isDate (year month day : Nat) : Bool :=
  1 ≤ month && month ≤ 12 && 1 ≤ day && day ≤ daysIn year month

def isTime (hour minute second : Nat) : Bool := hour < 24 && minute < 60 && second < 60

/-- What a reader makes of the front of a text. -/
abbrev Reader (α : Type) := List Char → Option (α × List Char)

def digit : Reader Nat
  | [] => none
  | c :: rest => if c.isDigit then some (c.toNat - 0x30, rest) else none

def twoDigits : Reader Nat := fun text => do
  let (tens, text) ← digit text
  let (ones, text) ← digit text
  return (tens * 10 + ones, text)

/-- Two digits, or one where no second digit follows. -/
def oneOrTwoDigits : Reader Nat := fun text =>
  match twoDigits text with
  | some result => some result
  | none => digit text

def fourDigits : Reader Nat := fun text => do
  let (century, text) ← twoDigits text
  let (year, text) ← twoDigits text
  return (century * 100 + year, text)

def sign (expected : Char) : Reader Unit
  | [] => none
  | c :: rest => if c = expected then some ((), rest) else none

/-- Year, month and day with dashes between them; the reader says how months and days are
written. -/
def date (number : Reader Nat) : Reader Unit := fun text => do
  let (year, text) ← fourDigits text
  let (_, text) ← sign '-' text
  let (month, text) ← number text
  let (_, text) ← sign '-' text
  let (day, text) ← number text
  if isDate year month day then return ((), text) else none

/-- Hour, minute and second with colons between them; the readers say how they are written. -/
def time (hours number : Reader Nat) : Reader Unit := fun text => do
  let (hour, text) ← hours text
  let (_, text) ← sign ':' text
  let (minute, text) ← number text
  let (_, text) ← sign ':' text
  let (second, text) ← number text
  if isTime hour minute second then return ((), text) else none

/-- A fraction of a second: a point, or a comma, and digits.  There may be none. -/
def fraction : List Char → List Char
  | mark :: c :: rest =>
    if (mark = '.' ∨ mark = ',') ∧ c.isDigit then rest.dropWhile Char.isDigit
    else mark :: c :: rest
  | text => text

/-- The distance from universal time: `Z`, or a sign, hours and minutes. -/
def zone : Reader Unit
  | [] => none
  | c :: text =>
    if c = 'Z' then some ((), text)
    else if c = '+' ∨ c = '-' then do
      let (hours, text) ← twoDigits text
      let (_, text) ← sign ':' text
      let (minutes, text) ← twoDigits text
      if hours ≤ 24 ∧ minutes ≤ 60 then return ((), text) else none
    else none

end LegacyBasic.Calendar
