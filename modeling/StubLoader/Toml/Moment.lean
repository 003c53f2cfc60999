import StubLoader.Json.Number
/-!
# Dates and times

A moment is a date, a time of day, or both with or without an offset from universal time. In its
plainest spelling the seconds are always there, a fraction of a second has no zeros at its end and
nine places at most, and a `T` stands between date and time.
-/

namespace StubLoader.Toml.Moment

/-- The number that the first `count` characters stand for, if they are digits, and the rest. -/
def fixed? (count : Nat) (cs : List Char) : Option (Nat × List Char) :=
  let ds := cs.take count
  if ds.length = count ∧ ds.all Json.isDigit then
    some (ds.foldl (fun n d => n * 10 + Json.digitValue d) 0, cs.drop count)
  else none

/-- The text after a character, if it starts with it. -/
def after? (c : Char) : List Char → Option (List Char)
  | [] => none
  | d :: cs => if d = c then some cs else none

/-- A number with zeros before it. -/
def padded (width n : Nat) : List Char :=
  let ds := Json.natDigits n
  List.replicate (width - ds.length) '0' ++ ds

/-- Whether a year has a 29th of February. -/
def isLeap (year : Nat) : Bool := (year % 4 = 0 && year % 100 ≠ 0) || year % 400 = 0

/-- The number of days in a month. -/
def monthDays (year month : Nat) : Nat :=
  if month = 2 then if isLeap year then 29 else 28
  else if month = 4 ∨ month = 6 ∨ month = 9 ∨ month = 11 then 30
  else 31

/-- A date at the start of a text, in its plainest spelling, and the rest. -/
def date? (cs : List Char) : Option (List Char × List Char) := do
  let (year, cs) ← fixed? 4 cs
  let (month, cs) ← fixed? 2 (← after? '-' cs)
  let (day, cs) ← fixed? 2 (← after? '-' cs)
  guard (1 ≤ month ∧ month ≤ 12 ∧ 1 ≤ day ∧ day ≤ monthDays year month)
  return (padded 4 year ++ '-' :: padded 2 month ++ '-' :: padded 2 day, cs)

/-- The most places of a fraction of a second. -/
def places : Nat := 9

/-- A fraction of a second without the zeros at its end. -/
def fraction (digits : List Char) : List Char :=
  match ((digits.take places).reverse.dropWhile (· = '0')).reverse with
  | [] => []
  | ds => '.' :: ds

/-- Seconds at the start of a text, in their plainest spelling, and the rest; there need not be
any. -/
def seconds? (cs : List Char) : Option (List Char × List Char) :=
  match after? ':' cs with
  | none => some (padded 2 0, cs)
  | some cs => do
    let (second, cs) ← fixed? 2 cs
    guard (second ≤ 60)
    match after? '.' cs with
    | none => return (padded 2 second, cs)
    | some cs =>
      let digits := cs.takeWhile Json.isDigit
      guard (digits ≠ [])
      return (padded 2 second ++ fraction digits, cs.dropWhile Json.isDigit)

/-- A time of day at the start of a text, in its plainest spelling, and the rest. -/
def time? (cs : List Char) : Option (List Char × List Char) := do
  let (hour, cs) ← fixed? 2 cs
  let (minute, cs) ← fixed? 2 (← after? ':' cs)
  guard (hour ≤ 23 ∧ minute ≤ 59)
  let (seconds, cs) ← seconds? cs
  return (padded 2 hour ++ ':' :: padded 2 minute ++ ':' :: seconds, cs)

/-- An offset, which takes up the whole text, in its plainest spelling; there need not be one. -/
def offset? (cs : List Char) : Option (List Char) :=
  match cs with
  | [] => some []
  | c :: cs =>
    if c = 'Z' ∨ c = 'z' then if cs = [] then some ['Z'] else none
    else if c = '+' ∨ c = '-' then do
      let (hour, cs) ← fixed? 2 cs
      let (minute, cs) ← fixed? 2 (← after? ':' cs)
      guard (hour ≤ 23 ∧ minute ≤ 59 ∧ cs = [])
      let sign := if hour = 0 ∧ minute = 0 then '+' else c
      return sign :: padded 2 hour ++ ':' :: padded 2 minute
    else none

/-- What may stand between date and time. -/
def isSeparator (c : Char) : Bool := c = 'T' || c = 't' || c = ' '

/-- The plainest spelling of a moment that takes up the whole text. -/
def spelling? (cs : List Char) : Option (List Char) :=
  match date? cs with
  | some (date, []) => some date
  | some (date, c :: cs) => do
    guard (isSeparator c)
    let (time, cs) ← time? cs
    return date ++ 'T' :: time ++ (← offset? cs)
  | none =>
    match time? cs with
    | some (time, []) => some time
    | _ => none

end StubLoader.Toml.Moment
