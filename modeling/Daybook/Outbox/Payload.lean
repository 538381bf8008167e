/-
The payload of a queued entry.

A payload is an object, or a list of pairs that spells one.  In such a
list any value that is neither an array nor an object can be a name.
Names are told apart by value, so `1`, `1.0` and `true` are one name; the
first spelling of a name stays and its last value counts.
-/
import Daybook.Json.Show

namespace Daybook.Outbox

-- ============================================================== names

/-- What a name in a list of pairs is known by. -/
inductive Name where
  | string (s : JsonString)
  | whole (n : Int)
  /-- A number that is not whole. -/
  | other (x : Binary64)
  | null
deriving DecidableEq

/-- What a value is known by as a name. -/
def Name.of : Json → Except Fault Name
  | .null => .ok .null
  | .bool b => .ok (.whole (if b then 1 else 0))
  | .int n => .ok (.whole n)
  | .float x =>
    .ok (match x.whole? with
      | some n => .whole n
      | none => .other x)
  | .str s => .ok (.string s)
  | _ => .error .notACollection

/-- The field that a name becomes: a string itself, any other value as it
is shown. -/
def fieldOf : Json → JsonString
  | .str s => s
  | value => value.text

-- ============================================================== pairs

/-- A pair that was read: its name, the field that it becomes and its
value. -/
structure Pair where
  name : Name
  field : JsonString
  value : Json

/-- Adds a pair at the end; if its name is there, that one takes its
value instead. -/
def addPair (added : Pair) : List Pair → List Pair
  | [] => [added]
  | pair :: pairs =>
    if pair.name = added.name then { pair with value := added.value } :: pairs
    else pair :: addPair added pairs

/-- The pairs in a list, added to those already read. -/
def readPairs (done : List Pair) : List Json → Except Fault (List Pair)
  | [] => .ok done
  | pair :: pairs => do
    match ← pair.elements with
    | [name, value] => readPairs (addPair ⟨← Name.of name, fieldOf name, value⟩ done) pairs
    | _ => .error .notPairs

/-- The record of some pairs.  Where two names become one field, the later
one counts. -/
def recordOf (pairs : List Pair) : Record :=
  Record.merge [] (pairs.map fun pair => (pair.field, pair.value))

/-- The fields of a payload: of an object, or of a list of pairs; none if
the value says nothing. -/
def payloadRecord (value : Json) : Except Fault Record :=
  if value.isVacant then .ok []
  else
    match value with
    | .obj fields => .ok fields
    | value => do return recordOf (← readPairs [] (← value.elements))

end Daybook.Outbox
