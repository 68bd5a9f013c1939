set_option autoImplicit false

/-! # Dates and times

A moment is a date, a time of day, or both with a `T` or a space in between and possibly an offset.
Only whether one is well formed matters: no setting takes a moment. Seconds may be left out, and may
be 60 for a leap second. -/

namespace MeterGate.Toml

/-- A number of exactly two digits, and what follows it. -/
def twoDigits? : List Char → Option (Nat × List Char)
  | a :: b :: rest =>
      if a.isDigit && b.isDigit then
        some ((a.toNat - '0'.toNat) * 10 + (b.toNat - '0'.toNat), rest)
      else none
  | _ => none

/-- What follows a given character. -/
def after? (c : Char) : List Char → Option (List Char)
  | d :: rest => if d = c then some rest else none
  | [] => none

/-- A year with a 29th of February. -/
def isLeapYear (year : Nat) : Bool := year % 4 = 0 && (year % 100 ≠ 0 || year % 400 = 0)

/-- The number of days of a month. -/
def daysIn (year month : Nat) : Nat :=
  if month = 2 then (if isLeapYear year then 29 else 28)
  else if [4, 6, 9, 11].contains month then 30
  else 31

/-- What follows a date. -/
def afterDate? (cs : List Char) : Option (List Char) := do
  let (century, cs) ← twoDigits? cs
  let (years, cs) ← twoDigits? cs
  let cs ← after? '-' cs
  let (month, cs) ← twoDigits? cs
  let cs ← after? '-' cs
  let (day, cs) ← twoDigits? cs
  let inYear := 1 ≤ month && month ≤ 12
  let inMonth := 1 ≤ day && day ≤ daysIn (century * 100 + years) month
  if inYear && inMonth then some cs else none

/-- What follows the digits of a fraction of a second, if there is one. -/
def afterFraction? : List Char → Option (List Char)
  | '.' :: d :: rest => if d.isDigit then some (rest.dropWhile Char.isDigit) else none
  | '.' :: [] => none
  | cs => some cs

/-- What follows the seconds of a time, if it has any. -/
def afterSeconds? : List Char → Option (List Char)
  | ':' :: cs => do
      let (second, cs) ← twoDigits? cs
      if second ≤ 60 then afterFraction? cs else none
  | cs => some cs

/-- What follows a time of day. -/
def afterTime? (cs : List Char) : Option (List Char) := do
  let (hour, cs) ← twoDigits? cs
  let cs ← after? ':' cs
  let (minute, cs) ← twoDigits? cs
  if hour ≤ 23 && minute ≤ 59 then afterSeconds? cs else none

/-- Whether nothing follows but an offset from universal time, or not even that. -/
def isOffset : List Char → Bool
  | [] => true
  | ['Z'] => true
  | ['z'] => true
  | sign :: cs =>
      (sign = '+' || sign = '-') &&
        match twoDigits? cs with
        | some (hours, ':' :: cs) =>
            match twoDigits? cs with
            | some (minutes, []) => hours ≤ 23 && minutes ≤ 59
            | _ => false
        | _ => false

/-- Whether a moment is written out, with nothing after it. -/
def isMoment (cs : List Char) : Bool :=
  match afterDate? cs with
  | some [] => true
  | some (c :: rest) =>
      (c = 'T' || c = 't' || c = ' ') &&
        match afterTime? rest with
        | some left => isOffset left
        | none => false
  | none => afterTime? cs == some []

example : isMoment "1979-05-27T07:32:00.999-07:00".toList = true := by decide +kernel
example : isMoment "07:32".toList = true := by decide +kernel
example : isMoment "2100-02-29".toList = false := by decide +kernel

end MeterGate.Toml
