import Redex.Fraction

/-!
# Moments

A scalar may look like a date, with or without a time of day: `2001-12-14`, `2001-12-14 21:59:43.1`
or `2001-12-14T21:59:43.1-05:00`. Such a scalar stands for a moment if the date is one of the
calendar and the time is one of the clock.
-/

set_option autoImplicit false

namespace Redex.Markup

/-- Read a number of one or two digits. -/
def readPair? : List Char → Option (Nat × List Char)
  | a :: b :: rest =>
    if !a.isDigit then none
    else if b.isDigit then some (Fraction.ofDigits [a, b], rest)
    else some (Fraction.ofDigits [a], b :: rest)
  | [a] => if a.isDigit then some (Fraction.ofDigits [a], []) else none
  | [] => none

/-- Read a character. -/
def readMark? (mark : Char) : List Char → Option (List Char)
  | [] => none
  | c :: rest => if c = mark then some rest else none

/-- The number of days of a month. -/
def daysOf (year month : Nat) : Nat :=
  if month = 2 then
    if year % 4 = 0 && (year % 100 != 0 || year % 400 = 0) then 29 else 28
  else if [4, 6, 9, 11].contains month then 30
  else 31

/-- Read a date of the calendar: a year of four digits, a month and a day. -/
def readDate? (text : List Char) : Option (List Char) := do
  let (year, rest) := Fraction.splitDigits text
  if year.length != 4 then none
  else
    let (month, rest) ← readPair? (← readMark? '-' rest)
    let (day, rest) ← readPair? (← readMark? '-' rest)
    if 1 ≤ month && month ≤ 12 && 1 ≤ day && day ≤ daysOf (Fraction.ofDigits year) month then
      return rest
    else none

/-- Go over the fraction of a second, if there is one. -/
def skipFraction : List Char → List Char
  | mark :: digit :: rest =>
    if (mark = '.' || mark = ',') && digit.isDigit then rest.dropWhile Char.isDigit
    else mark :: digit :: rest
  | text => text

/-- Read a time of the clock: hour, minute and second. -/
def readTime? (text : List Char) : Option (List Char) := do
  let (hour, rest) ← readPair? text
  let (minute, rest) ← readPair? (← readMark? ':' rest)
  let (second, rest) ← readPair? (← readMark? ':' rest)
  if hour < 24 && minute < 60 && second < 60 then return skipFraction rest else none

/-- Whether a text is a zone: `Z`, or a sign, two digits for hours and two for minutes. -/
def isZone : List Char → Bool
  | ['Z'] => true
  | [sign, a, b, ':', c, d] =>
    (sign = '+' || sign = '-') && [a, b, c, d].all Char.isDigit &&
      Fraction.ofDigits [a, b] ≤ 24 && Fraction.ofDigits [c, d] ≤ 60
  | _ => false

/-- Whether a text stands for a moment. A time behind a space has no zone, one behind a letter has
one. -/
def isMoment (text : List Char) : Bool :=
  match readDate? text with
  | none => false
  | some [] => true
  | some (mark :: rest) =>
    if mark = ' ' then readTime? (rest.dropWhile (· = ' ')) = some []
    else if mark = 'T' || mark = 't' then ((readTime? rest).map isZone).getD false
    else false

end Redex.Markup
