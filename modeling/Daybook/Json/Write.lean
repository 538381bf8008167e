/-
JSON as text: one line, ASCII only.

Elements are separated by a comma and a space, a field's name from its
value by a colon and a space.  Characters outside the printable ASCII
range are written as UTF-16 code units in hexadecimal, lone surrogates as
they are.  So the text of a
value never holds a line break, and the outbox can keep one entry a line.
-/
import Daybook.Json.Basic
import Daybook.Number.Shortest
import Daybook.Text.Digit
import Daybook.Text.Quote

namespace Daybook.Json

open Text

/-- One UTF-16 code unit as an escape. -/
def escapeUnit (n : Nat) : List Char := '\\' :: 'u' :: hexDigits 4 n

/-- One character inside a string. -/
def escapeChar (c : Char) : List Char :=
  if c = '"' ∨ c = '\\' then ['\\', c]
  else if c = '\n' then ['\\', 'n']
  else if c = '\r' then ['\\', 'r']
  else if c = '\t' then ['\\', 't']
  else if c.toNat = 8 then ['\\', 'b']
  else if c.toNat = 12 then ['\\', 'f']
  else if 32 ≤ c.toNat ∧ c.toNat < 127 then [c]
  else if c.toNat < 0x10000 then escapeUnit c.toNat
  else
    escapeUnit (0xD800 + (c.toNat - 0x10000) / 0x400) ++
      escapeUnit (0xDC00 + (c.toNat - 0x10000) % 0x400)

/-- One point inside a string. -/
def escapePoint : Point → List Char
  | .char c => escapeChar c
  | point => escapeUnit point.toNat

/-- A string in its quotes. -/
def writeString (s : JsonString) : List Char := '"' :: s.points.flatMap escapePoint ++ ['"']

/-- A double precision number; the three values without digits have
names. -/
def writeFloat (x : Binary64) : List Char :=
  match x with
  | .nan => "NaN".toList
  | .infinite negative => if negative then "-Infinity".toList else "Infinity".toList
  | _ => x.text.toList

mutual

/-- The text of a value. -/
def write : Json → List Char
  | .null => "null".toList
  | .bool b => if b then "true".toList else "false".toList
  | .int n => (toString n).toList
  | .float x => writeFloat x
  | .str s => writeString s
  | .arr items => '[' :: writeItems items ++ [']']
  | .obj fields => '\x7b' :: writeFields fields ++ ['\x7d']

/-- The texts of elements, separated. -/
def writeItems : List Json → List Char
  | [] => []
  | [item] => write item
  | item :: items => write item ++ ',' :: ' ' :: writeItems items

/-- The texts of fields, separated. -/
def writeFields : List (JsonString × Json) → List Char
  | [] => []
  | [(key, value)] => writeString key ++ ':' :: ' ' :: write value
  | (key, value) :: fields =>
    writeString key ++ ':' :: ' ' :: write value ++ ',' :: ' ' :: writeFields fields

end

mutual

/-- Whether a value has a text: a whole number of more than `maxDigits`
digits has none. -/
def isWritable : Json → Bool
  | .int n => (toString n.natAbs).length ≤ maxDigits
  | .arr items => areWritable items
  | .obj fields => fieldsWritable fields
  | _ => true

/-- Whether all elements have texts. -/
def areWritable : List Json → Bool
  | [] => true
  | item :: items => isWritable item && areWritable items

/-- Whether the values of all fields have texts. -/
def fieldsWritable : List (JsonString × Json) → Bool
  | [] => true
  | (_, value) :: fields => isWritable value && fieldsWritable fields

end

/-- The text of a value as a string. -/
def compose (value : Json) : String := String.ofList (write value)

end Daybook.Json
