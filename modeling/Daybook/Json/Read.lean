/-
Reading JSON.

The grammar is that of JSON with three more numbers: `NaN`, `Infinity` and
`-Infinity`.  A number too large for double precision is infinite.  Where
a field is given twice the last value counts, in the place of the first.
A string holds no raw control characters, and nothing but blanks follows
the value.  Two escapes that form a surrogate pair are one character; a
surrogate without its partner is a point of its own.
-/
import Daybook.Json.Basic
import Daybook.Text.Digit
import Daybook.Text.Scan

namespace Daybook.Json

open Text

/-- Why a text could not be read. -/
inductive ReadError where
  /-- The text is not JSON. -/
  | malformed
  /-- It holds a whole number of more than `Text.maxDigits` digits. -/
  | tooManyDigits
deriving DecidableEq

/-- What follows the blanks between tokens. -/
def skipSpace (cs : List Char) : List Char :=
  cs.dropWhile fun c => c == ' ' || c == '\t' || c == '\n' || c == '\r'

/-- What follows a given text at the head. -/
def after? (word : String) (cs : List Char) : Option (List Char) :=
  if startsWith word cs then some (cs.drop word.length) else none

-- =========================================================== strings

/-- The value of a hexadecimal digit. -/
def hexValue? (c : Char) : Option Nat :=
  let n := c.toNat
  if 48 ≤ n ∧ n ≤ 57 then some (n - 48)
  else if 97 ≤ n ∧ n ≤ 102 then some (n - 87)
  else if 65 ≤ n ∧ n ≤ 70 then some (n - 55)
  else none

/-- Four hexadecimal digits at the head of a text. -/
def unit? (cs : List Char) : Option (Nat × List Char) :=
  match cs with
  | a :: b :: c :: d :: rest =>
    match hexValue? a, hexValue? b, hexValue? c, hexValue? d with
    | some w, some x, some y, some z => some (((w * 16 + x) * 16 + y) * 16 + z, rest)
    | _, _, _, _ => none
  | _ => none

/-- The point behind a backslash, with what follows it. -/
def escaped? (cs : List Char) : Option (Point × List Char) :=
  match cs with
  | '"' :: rest => some (.char '"', rest)
  | '\\' :: rest => some (.char '\\', rest)
  | '/' :: rest => some (.char '/', rest)
  | 'b' :: rest => some (.char (Char.ofNat 8), rest)
  | 'f' :: rest => some (.char (Char.ofNat 12), rest)
  | 'n' :: rest => some (.char '\n', rest)
  | 'r' :: rest => some (.char '\r', rest)
  | 't' :: rest => some (.char '\t', rest)
  | 'u' :: rest =>
    (unit? rest).map fun (high, rest) =>
      let pair := if 0xD800 ≤ high ∧ high < 0xDC00 then
          match rest with
          | '\\' :: 'u' :: more => (unit? more).filter fun (low, _) => 0xDC00 ≤ low && low < 0xE000
          | _ => none
        else none
      match pair with
      | some (low, rest) =>
        (.char (Char.ofNat (0x10000 + (high - 0xD800) * 0x400 + (low - 0xDC00))), rest)
      | none => (.ofUnit high, rest)
  | _ => none

/-- The rest of a string behind its first quote, with what follows its
last quote. -/
def readPoints (fuel : Nat) (cs : List Char) : Option (List Point × List Char) :=
  match fuel with
  | 0 => none
  | fuel + 1 =>
    match cs with
    | [] => none
    | '"' :: rest => some ([], rest)
    | '\\' :: rest =>
      match escaped? rest with
      | some (point, rest) =>
        (readPoints fuel rest).map fun (points, rest) => (point :: points, rest)
      | none => none
    | c :: rest =>
      if c.toNat < 32 then none
      else (readPoints fuel rest).map fun (points, rest) => (.char c :: points, rest)

/-- A string behind its first quote. -/
def readString (cs : List Char) : Except ReadError (JsonString × List Char) :=
  match readPoints (cs.length + 1) cs with
  | some (points, rest) => .ok (.ofPoints points, rest)
  | none => .error .malformed

-- =========================================================== numbers

/-- An ASCII digit. -/
def isAsciiDigit (c : Char) : Bool := 48 ≤ c.toNat && c.toNat ≤ 57

/-- The value of a text of ASCII digits. -/
def asciiValue (cs : List Char) : Nat := cs.foldl (fun n c => n * 10 + (c.toNat - 48)) 0

/-- The digits of the whole part: a zero stands alone. -/
def wholeDigits (cs : List Char) : List Char :=
  match cs with
  | '0' :: _ => ['0']
  | _ => cs.takeWhile isAsciiDigit

/-- The digits behind the point, if there are any. -/
def fractionDigits (cs : List Char) : List Char :=
  match cs with
  | '.' :: rest => rest.takeWhile isAsciiDigit
  | _ => []

/-- The exponent, with the number of characters it takes. -/
def exponent? (cs : List Char) : Option (Int × Nat) :=
  match cs with
  | c :: rest =>
    if c = 'e' ∨ c = 'E' then
      let (negative, digits, signs) := match rest with
        | '-' :: ds => (true, ds, 1)
        | '+' :: ds => (false, ds, 1)
        | ds => (false, ds, 0)
      match digits.takeWhile isAsciiDigit with
      | [] => none
      | ds =>
        let size : Int := asciiValue ds
        some (if negative then -size else size, 1 + signs + ds.length)
    else none
  | [] => none

/-- A number behind its sign: whole if it has neither a fraction nor an
exponent. -/
def readNumber (negative : Bool) (cs : List Char) : Except ReadError (Json × List Char) :=
  let whole := wholeDigits cs
  let rest := cs.drop whole.length
  let fraction := fractionDigits rest
  let rest := if fraction.isEmpty then rest else rest.drop (1 + fraction.length)
  if whole.isEmpty then .error .malformed
  else
    match exponent? rest with
    | some (power, size) =>
      .ok (.float (Binary64.ofDecimal negative (asciiValue (whole ++ fraction))
        (power - (fraction.length : Int))), rest.drop size)
    | none =>
      if fraction.isEmpty then
        if maxDigits < whole.length then .error .tooManyDigits
        else
          let size : Int := asciiValue whole
          .ok (.int (if negative then -size else size), rest)
      else
        .ok (.float (Binary64.ofDecimal negative (asciiValue (whole ++ fraction))
          (-(fraction.length : Int))), rest)

-- ============================================================ values

mutual

/-- A value at the head of a text, with what follows it. -/
def readValue (fuel : Nat) (cs : List Char) : Except ReadError (Json × List Char) :=
  match fuel with
  | 0 => .error .malformed
  | fuel + 1 =>
    match cs with
    | [] => .error .malformed
    | '"' :: rest => (readString rest).map fun (s, rest) => (.str s, rest)
    | '[' :: rest =>
      match skipSpace rest with
      | ']' :: rest => .ok (.arr [], rest)
      | rest => (readItems fuel rest).map fun (items, rest) => (.arr items, rest)
    | '\x7b' :: rest =>
      match skipSpace rest with
      | '\x7d' :: rest => .ok (.obj [], rest)
      | rest => (readFields fuel [] rest).map fun (fields, rest) => (.obj fields, rest)
    | '-' :: rest =>
      match after? "Infinity" rest with
      | some rest => .ok (.float (.infinite true), rest)
      | none => readNumber true rest
    | cs =>
      match after? "null" cs, after? "true" cs, after? "false" cs, after? "NaN" cs,
          after? "Infinity" cs with
      | some rest, _, _, _, _ => .ok (.null, rest)
      | _, some rest, _, _, _ => .ok (.bool true, rest)
      | _, _, some rest, _, _ => .ok (.bool false, rest)
      | _, _, _, some rest, _ => .ok (.float .nan, rest)
      | _, _, _, _, some rest => .ok (.float (.infinite false), rest)
      | _, _, _, _, _ => readNumber false cs

/-- The elements of an array up to its closing bracket. -/
def readItems (fuel : Nat) (cs : List Char) : Except ReadError (List Json × List Char) :=
  match fuel with
  | 0 => .error .malformed
  | fuel + 1 =>
    match readValue fuel cs with
    | .error e => .error e
    | .ok (item, rest) =>
      match skipSpace rest with
      | ',' :: rest =>
        (readItems fuel (skipSpace rest)).map fun (items, rest) => (item :: items, rest)
      | ']' :: rest => .ok ([item], rest)
      | _ => .error .malformed

/-- The fields of an object up to its closing brace, added to those
already read. -/
def readFields (fuel : Nat) (done : Record) (cs : List Char) :
    Except ReadError (Record × List Char) :=
  match fuel with
  | 0 => .error .malformed
  | fuel + 1 =>
    match cs with
    | '"' :: rest =>
      match readString rest with
      | .error e => .error e
      | .ok (key, rest) =>
        match skipSpace rest with
        | ':' :: rest =>
          match readValue fuel (skipSpace rest) with
          | .error e => .error e
          | .ok (value, rest) =>
            let done := done.set key value
            match skipSpace rest with
            | ',' :: rest => readFields fuel done (skipSpace rest)
            | '\x7d' :: rest => .ok (done, rest)
            | _ => .error .malformed
        | _ => .error .malformed
    | _ => .error .malformed

end

/-- Reads a text that holds one value and blanks around it. -/
def readText (cs : List Char) : Except ReadError Json :=
  match readValue (2 * cs.length + 2) (skipSpace cs) with
  | .error e => .error e
  | .ok (value, rest) => if (skipSpace rest).isEmpty then .ok value else .error .malformed

/-- Reads a string that holds one value and blanks around it. -/
def parse (s : String) : Except ReadError Json := readText s.toList

end Daybook.Json
