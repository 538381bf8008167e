/-
JSON values.

Memories, request bodies and queued entries are JSON.  An object is the
list of its fields in the order in which they were first set, a `Record`;
whole numbers have no size limit and are kept apart from double precision
numbers.
-/
import Daybook.Json.String
import Daybook.Number.Binary64

namespace Daybook

/-- A JSON value. -/
inductive Json where
  | null
  | bool (value : Bool)
  | int (value : Int)
  | float (value : Binary64)
  | str (value : JsonString)
  | arr (items : List Json)
  | obj (fields : List (JsonString × Json))

instance : Inhabited Json := ⟨.null⟩

/-- The fields of an object, in order. -/
abbrev Record := List (JsonString × Json)

namespace Record

/-- The value of a field, if it is set. -/
def get? (record : Record) (key : JsonString) : Option Json :=
  match record with
  | [] => none
  | (k, v) :: rest => if k = key then some v else get? rest key

/-- The value of a field; null if it is not set. -/
def get (record : Record) (key : JsonString) : Json := (get? record key).getD .null

/-- Sets a field: in its place if it is there, else at the end. -/
def set (record : Record) (key : JsonString) (value : Json) : Record :=
  match record with
  | [] => [(key, value)]
  | (k, v) :: rest => if k = key then (k, value) :: rest else (k, v) :: set rest key value

/-- The record without a field. -/
def erase (record : Record) (key : JsonString) : Record := record.filter (·.1 ≠ key)

/-- Sets all fields of another record, in its order. -/
def merge (record other : Record) : Record :=
  other.foldl (fun acc field => acc.set field.1 field.2) record

-- ============================================================== laws

@[simp] theorem get?_set_self (record : Record) (key : JsonString) (value : Json) :
    (record.set key value).get? key = some value := by
  induction record with
  | nil => simp [set, get?]
  | cons field rest ih =>
    obtain ⟨k, v⟩ := field
    by_cases h : k = key <;> simp [set, get?, h, ih]

theorem get?_set_of_ne (record : Record) {key other : JsonString} (value : Json)
    (h : key ≠ other) : (record.set key value).get? other = record.get? other := by
  induction record with
  | nil => simp [set, get?, h]
  | cons field rest ih =>
    obtain ⟨k, v⟩ := field
    by_cases hk : k = key
    · subst hk; simp [set, get?, h]
    · by_cases ho : k = other
      · subst ho; simp [set, get?, hk]
      · simp [set, get?, hk, ho, ih]

@[simp] theorem get_set_self (record : Record) (key : JsonString) (value : Json) :
    (record.set key value).get key = value := by
  simp [get]

theorem get_set_of_ne (record : Record) {key other : JsonString} (value : Json)
    (h : key ≠ other) : (record.set key value).get other = record.get other := by
  simp [get, get?_set_of_ne record value h]

/-- Fields that are merged in leave the others alone. -/
theorem get?_merge (record : Record) {other : Record} {key : JsonString}
    (h : ∀ field ∈ other, field.1 ≠ key) : (record.merge other).get? key = record.get? key := by
  induction other generalizing record with
  | nil => rfl
  | cons field other ih =>
      show (Record.merge (record.set field.1 field.2) other).get? key = _
      rw [ih _ fun later hmem => h later (List.mem_cons_of_mem field hmem),
        get?_set_of_ne _ _ (h field List.mem_cons_self)]

/-- Fields that are merged in can be read there, if none is set twice. -/
theorem get_merge_of_mem (record : Record) {other : Record} (hkeys : (other.map Prod.fst).Nodup)
    {field : JsonString × Json} (hmem : field ∈ other) :
    (record.merge other).get field.1 = field.2 := by
  induction other generalizing record with
  | nil => cases hmem
  | cons first other ih =>
      obtain ⟨hfirst, hothers⟩ := List.nodup_cons.mp hkeys
      show (Record.merge (record.set first.1 first.2) other).get field.1 = field.2
      rcases List.mem_cons.mp hmem with rfl | hlater
      · have hkept : (Record.merge (record.set field.1 field.2) other).get? field.1
            = (record.set field.1 field.2).get? field.1 :=
          get?_merge _ fun later hlater hkey => hfirst (hkey ▸ List.mem_map_of_mem hlater)
        unfold get
        rw [hkept, get?_set_self]
        rfl
      · exact ih _ hothers hlater

end Record

namespace Json

/-- A text as a value. -/
@[match_pattern] abbrev ofText (text : String) : Json := .str (.whole text)

/-- A list of texts as a value. -/
def strings (texts : List String) : Json := .arr (texts.map .ofText)

/-- A text, or null if there is none. -/
def ofOption (text : Option String) : Json :=
  match text with
  | some s => .str s
  | none => .null

/-- Whether a value says nothing: null, false, zero, and the empty string,
array and object. -/
def isVacant : Json → Bool
  | .null => true
  | .bool b => !b
  | .int n => n == 0
  | .float x => x.isZero
  | .str s => s == ""
  | .arr items => items.isEmpty
  | .obj fields => fields.isEmpty

/-- The value, or another one if it says nothing. -/
def orElse (value other : Json) : Json := if value.isVacant then other else value

/-- Whether a value counts as not given: null, the empty string and the
empty array. -/
def isUnset : Json → Bool
  | .null => true
  | .str s => s == ""
  | .arr items => items.isEmpty
  | _ => false

/-- The fields of an object. -/
def fields? : Json → Option Record
  | .obj fields => some fields
  | _ => none

end Json
end Daybook
