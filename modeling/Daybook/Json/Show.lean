/-
Values as they appear in messages and paths.

A string is shown as it is; null, true and false by name, numbers in
decimal.  Arrays and objects are shown in brackets and braces, the strings
inside them in quotes.  A lone surrogate is spelled out between quotes
and replaced elsewhere.
-/
import Daybook.Fault
import Daybook.Json.Basic
import Daybook.Number.Shortest
import Daybook.Text.Quote

namespace Daybook.Json

mutual

/-- A value inside an array or an object. -/
def inner : Json → String
  | .null => "None"
  | .bool b => if b then "True" else "False"
  | .int n => toString n
  | .float x => x.text
  | .str s => s.quoted
  | .arr items => "[" ++ innerItems items ++ "]"
  | .obj fields => "\x7b" ++ innerFields fields ++ "\x7d"

/-- Elements, separated by commas. -/
def innerItems : List Json → String
  | [] => ""
  | [item] => inner item
  | item :: items => inner item ++ ", " ++ innerItems items

/-- Fields, separated by commas. -/
def innerFields : List (JsonString × Json) → String
  | [] => ""
  | [(key, value)] => key.quoted ++ ": " ++ inner value
  | (key, value) :: fields =>
    key.quoted ++ ": " ++ inner value ++ ", " ++ innerFields fields

end

/-- A value in a message. -/
def text : Json → String
  | .str s => s.text
  | value => value.inner

-- ==================================================== needed shapes

/-- A field of a value that has to be an object; null if it is not set. -/
def field (value : Json) (key : JsonString) : Except Fault Json :=
  match value with
  | .obj fields => .ok (Record.get fields key)
  | _ => .error .notAnObject

/-- The elements of a collection: of an array its elements, of a string
its code points, of an object its keys. -/
def elements : Json → Except Fault (List Json)
  | .arr items => .ok items
  | .str s => .ok (s.points.map fun point => .str (.ofPoints [point]))
  | .obj fields => .ok (fields.map fun field => .str field.1)
  | _ => .error .notACollection

/-- The elements of a collection; none if the value says nothing. -/
def elementsOrNone (value : Json) : Except Fault (List Json) :=
  if value.isVacant then .ok [] else value.elements

/-- The strings of a list that holds nothing else. -/
def allStrings : List Json → Except Fault (List String)
  | [] => .ok []
  | .str s :: rest => (allStrings rest).map (s.text :: ·)
  | _ :: _ => .error .notStrings

/-- The strings of a list, joined. -/
def joined (separator : String) (items : List Json) : Except Fault String :=
  (allStrings items).map separator.intercalate

@[simp] theorem allStrings_map_str (texts : List String) :
    allStrings (texts.map .ofText) = .ok texts := by
  induction texts with
  | nil => rfl
  | cons s rest ih => simp [allStrings, ih, Except.map]

theorem elementsOrNone_arr (items : List Json) : (Json.arr items).elementsOrNone = .ok items := by
  cases items with
  | nil => rfl
  | cons item items => rfl

theorem joined_strings (separator : String) (texts : List String) :
    joined separator (texts.map .ofText) = .ok (separator.intercalate texts) := by
  unfold joined
  rw [allStrings_map_str]
  rfl

end Daybook.Json
