/-
The kinds of structured entry.
-/

namespace Daybook.Entry

/-- The kinds of entry that are filled in from a form and revised from a menu. -/
inductive Kind where
  | table
  | list
  | timeline
  | image
deriving DecidableEq

namespace Kind

/-- The name of a kind. -/
def name : Kind → String
  | .table => "table"
  | .list => "list"
  | .timeline => "timeline"
  | .image => "image"

/-- The name of a kind at the head of a sentence. -/
def label : Kind → String
  | .table => "Table"
  | .list => "List"
  | .timeline => "Timeline"
  | .image => "Image"

/-- All kinds. -/
def all : List Kind := [.table, .list, .timeline, .image]

/-- The kind with a name. -/
def ofName? (name : String) : Option Kind := all.find? (·.name = name)

theorem ofName?_name (kind : Kind) : ofName? kind.name = some kind := by
  cases kind <;> decide

theorem name_injective {kind other : Kind} (h : kind.name = other.name) : kind = other := by
  have hkinds := congrArg ofName? h
  rw [ofName?_name, ofName?_name] at hkinds
  exact Option.some.inj hkinds

theorem name_of_ofName? {name : String} {kind : Kind} (h : ofName? name = some kind) :
    kind.name = name := by
  simpa using List.find?_some h

end Kind
end Daybook.Entry
