/-
Times of day, in one spelling.

A time may be typed as `9`, `9am`, `9:00`, `9:00pm`, `09 00 pm` or
`0900pm`.  All of these become `H:MM` or `H:MM AM`, the hour without
leading zeros and in ASCII digits, the minutes as typed.  Anything else is
kept as it stands, trimmed.
-/
import Daybook.Text.Digit
import Daybook.Text.Letter

namespace Daybook.Entry

open Text

/-- A time as it was typed: the hour, the two digits of the minutes if
there are any, and the half of the day if it was named. -/
structure Clock where
  hour : Nat
  minutes : Option (List Char)
  half : Option String

/-- The half of the day that ends a time, if one does; none if something
else stands there. -/
def half? (cs : List Char) : Option (Option String) :=
  match cs with
  | [] => some none
  | [x, m] =>
    if fold m = 'm' then
      if fold x = 'a' then some (some "AM")
      else if fold x = 'p' then some (some "PM")
      else none
    else none
  | _ => none

/-- What follows the hour: a colon or one blank may stand before the
minutes, blanks before the half of the day. -/
def afterHour (hour : Nat) (cs : List Char) : Option Clock :=
  let body := match cs with
    | c :: rest => if c = ':' ∨ isBlank c then rest else c :: rest
    | [] => []
  match body with
  | a :: b :: rest =>
    if isDigit a && isDigit b then
      (half? (skipBlank rest)).map fun h => ⟨hour, some [a, b], h⟩
    else
      (half? (skipBlank body)).map fun h => ⟨hour, none, h⟩
  | _ => (half? (skipBlank body)).map fun h => ⟨hour, none, h⟩

/-- Reads a time: two digits are the hour if the rest allows it, else
one. -/
def clock? (cs : List Char) : Option Clock :=
  match cs with
  | a :: rest =>
    match digitValue? a with
    | none => none
    | some x =>
      let short := afterHour x rest
      match rest with
      | b :: rest' =>
        match digitValue? b with
        | some y => (afterHour (x * 10 + y) rest').or short
        | none => short
      | [] => short
  | [] => none

/-- The one spelling of a time. -/
def Clock.text (clock : Clock) : String :=
  let base := toString clock.hour ++ ":" ++ String.ofList (clock.minutes.getD ['0', '0'])
  match clock.half with
  | some h => base ++ " " ++ h
  | none => base

/-- Brings a time into its one spelling; what is no time is trimmed. -/
def normalizeTime (s : String) : String :=
  match clock? (trim s.toList) with
  | some clock => clock.text
  | none => trimmed s

end Daybook.Entry
