import ClientPatch.Text

/-!
# Dates and times of configuration documents

A moment is a date, a time of day, or a date and a time with an optional distance from
universal time. Dates are those of the calendar, with its leap years; the seconds of a time may
be left out, and a leap second may be named.
-/

namespace ClientPatch.Toml

/-- A number of exactly `n` digits, and the rest. -/
def fixedDigits? : Nat → Text → Option (Nat × Text)
  | 0, t => some (0, t)
  | n + 1, c :: t =>
    if c.isDigit then
      (fixedDigits? n t).map fun p => ((c.toNat - '0'.toNat) * Nat.pow 10 n + p.1, p.2)
    else none
  | _ + 1, [] => none

/-- The days of a month. -/
def daysOfMonth (year month : Nat) : Nat :=
  if month = 2 then
    if year % 4 = 0 ∧ (year % 100 ≠ 0 ∨ year % 400 = 0) then 29 else 28
  else if month = 4 ∨ month = 6 ∨ month = 9 ∨ month = 11 then 30
  else 31

/-- What follows a date of the calendar. -/
def afterDate? (t : Text) : Option Text :=
  match fixedDigits? 4 t with
  | some (year, '-' :: t) =>
    match fixedDigits? 2 t with
    | some (month, '-' :: t) =>
      match fixedDigits? 2 t with
      | some (day, t) =>
        if 1 ≤ month ∧ month ≤ 12 ∧ 1 ≤ day ∧ day ≤ daysOfMonth year month then some t
        else none
      | none => none
    | _ => none
  | _ => none

/-- What follows the hours and minutes of a day. -/
def afterMinutes? (t : Text) : Option Text :=
  match fixedDigits? 2 t with
  | some (hour, ':' :: t) =>
    match fixedDigits? 2 t with
    | some (minute, t) => if hour ≤ 23 ∧ minute ≤ 59 then some t else none
    | none => none
  | _ => none

/-- What follows the seconds and their fraction, both of which may be left out. -/
def afterSeconds? : Text → Option Text
  | ':' :: t =>
    match fixedDigits? 2 t with
    | some (second, t) =>
      if second ≤ 60 then
        match t with
        | '.' :: c :: t => if c.isDigit then some (t.dropWhile Char.isDigit) else none
        | ['.'] => none
        | t => some t
      else none
    | none => none
  | t => some t

/-- Whether a text is the distance from universal time, or nothing. -/
def isZone : Text → Bool
  | [] => true
  | ['Z'] => true
  | ['z'] => true
  | '+' :: t => afterMinutes? t == some []
  | '-' :: t => afterMinutes? t == some []
  | _ => false

/-- What follows a time of day. -/
def afterTime? (t : Text) : Option Text := (afterMinutes? t).bind afterSeconds?

/-- Whether a character parts a date from a time. -/
def isTimeMark (c : Char) : Bool := c == 'T' || c == 't' || c == ' '

/-- Whether a text writes a date, a time, or both. -/
def isMoment (t : Text) : Bool :=
  match afterDate? t with
  | some [] => true
  | some (c :: rest) =>
    isTimeMark c &&
      match afterTime? rest with
      | some zone => isZone zone
      | none => false
  | none => afterTime? t == some []

end ClientPatch.Toml
