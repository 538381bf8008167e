/-
Forms: the guided creation of tables, lists, timelines and images.

A form asks for one thing after another.  Each kind of entry has its own
sequence of steps; the step at the form's index is the one that waits for
an answer.  What has been answered is kept in a draft, a record of fields.
-/
import Daybook.Entry.Kind
import Daybook.Entry.Show
import Daybook.Disk.Basic

namespace Daybook

/-- What a form asks for. -/
inductive FormStep where
  | title
  | columns
  | rows
  | items
  | events
  | tags
  | category
  | select
  | description
  | album
  | confirm
deriving DecidableEq

namespace FormStep

/-- The name of a step, which is the field of the draft that it fills. -/
def name : FormStep → String
  | .title => "title"
  | .columns => "columns"
  | .rows => "rows"
  | .items => "items"
  | .events => "events"
  | .tags => "tags"
  | .category => "category"
  | .select => "select"
  | .description => "description"
  | .album => "album"
  | .confirm => "confirm"

/-- Whether a step collects answers until the user is done. -/
def collects : FormStep → Bool
  | .rows => true
  | .items => true
  | .events => true
  | _ => false

/-- What a step leaves in its field when it is skipped, if it can be. -/
def skipped? : FormStep → Option Json
  | .title => some (.str "")
  | .tags => some (.arr [])
  | .category => some .null
  | .description => some (.str "")
  | .album => some .null
  | _ => none

end FormStep

/-- The steps of a form, in order. -/
def formSteps : Entry.Kind → List FormStep
  | .table => [.title, .columns, .rows, .tags, .category]
  | .list => [.title, .items, .tags, .category]
  | .timeline => [.title, .events, .tags, .category]
  | .image => [.select, .description, .tags, .album, .confirm]

/-- What has been answered: the fields, and the image once it has been
selected. -/
structure Draft where
  fields : Record
  image : Option Content

namespace Draft

/-- The value of a field. -/
def get (draft : Draft) (key : JsonString) : Json := Record.get draft.fields key

/-- Sets a field. -/
def set (draft : Draft) (key : JsonString) (value : Json) : Draft :=
  { draft with fields := Record.set draft.fields key value }

/-- Adds a value at the end of a field that has to be an array, and
returns its new length as well. -/
def push (draft : Draft) (key : JsonString) (value : Json) : Except Fault (Draft × Nat) :=
  match draft.get key with
  | .arr items => .ok (draft.set key (.arr (items ++ [value])), items.length + 1)
  | _ => .error .notAnArray

/-- The fields of a draft before anything is answered. -/
def blank : Entry.Kind → Record
  | .table => [("title", .str ""), ("columns", .arr []), ("rows", .arr []), ("tags", .arr []),
      ("category", .null)]
  | .list => [("title", .str ""), ("items", .arr []), ("tags", .arr []), ("category", .null)]
  | .timeline => [("title", .str ""), ("events", .arr []), ("tags", .arr []), ("category", .null)]
  | .image => [("file", .null), ("filename", .null), ("file_path", .null),
      ("description", .str ""), ("tags", .arr []), ("album", .null)]

/-- A draft with the seed's fields, those not given left out. -/
def start (kind : Entry.Kind) (seed : Record) : Draft :=
  { fields := Record.merge (blank kind) (seed.filter fun field => !field.2.isUnset)
    image := none }

end Draft

/-- A form being filled in. -/
structure Form where
  kind : Entry.Kind
  draft : Draft
  index : Nat

namespace Form

/-- The step that waits for an answer. -/
def step? (form : Form) : Option FormStep := (formSteps form.kind)[form.index]?

/-- The index of the last step. -/
def lastIndex (kind : Entry.Kind) : Nat := (formSteps kind).length - 1

end Form
end Daybook
