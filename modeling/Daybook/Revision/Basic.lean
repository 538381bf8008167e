/-
Revisions: changing a structured entry from a menu.

A revision holds a memory as it was read and a working copy of the fields
that can be changed.  Its place is the menu or the input that an option of
the menu waits for.  Only saving touches the backend.
-/
import Daybook.Entry.Kind
import Daybook.Entry.Show
import Daybook.Message

namespace Daybook

/-- One of the things that an entry lists: a row of a table, an item of a
list or an event of a timeline. -/
inductive Element where
  | row (values : List Json)
  | item (value : Json)
  | event (time description : Json)

namespace Element

/-- An element as a value. -/
def toJson : Element → Json
  | .row values => .arr values
  | .item value => value
  | .event time description => .obj [("time", time), ("description", description)]

/-- An element in one line, with `separator` between the time and the
description of an event. -/
def shownWith (separator : String) : Element → Except Fault String
  | .row values => Entry.rowText values
  | .item value => .ok value.text
  | .event time description => (Entry.eventText time description separator).map Json.text

/-- An element in one line. -/
def shown (element : Element) : Except Fault String := element.shownWith Entry.dash

end Element

/-- The fields of an entry that can be changed.  A table has columns, and
every kind but an image has a title, a category and elements; an image has
a description. -/
structure Copy where
  title : Json
  description : Json
  tags : List Json
  category : Json
  columns : List Json
  elements : List Element

namespace Copy

/-- Reads one element of a memory of some kind. -/
def element (kind : Entry.Kind) (value : Json) : Except Fault Element :=
  match kind with
  | .table => value.elements.map .row
  | .timeline => do
    let time ← value.field "time"
    let description ← value.field "description"
    return .event (time.orElse (.str "")) (description.orElse (.str ""))
  | _ => .ok (.item value)

/-- The field of a memory that holds its elements. -/
def elementsField : Entry.Kind → String
  | .table => "rows"
  | .list => "items"
  | .timeline => "events"
  | .image => ""

/-- The working copy of a memory. -/
def load (kind : Entry.Kind) (memory : Record) : Except Fault Copy := do
  let tags ← (Record.get memory "tags").elementsOrNone
  let description := (Record.get memory "description").orElse (.str "")
  match kind with
  | .image => return ⟨.null, description, tags, .null, [], []⟩
  | kind =>
    let title := (Record.get memory "content").orElse (.str "")
    let category := (Record.get memory "category").orElse .null
    let columns ← if kind = .table then (Record.get memory "columns").elementsOrNone else .ok []
    let values ← (Record.get memory (elementsField kind)).elementsOrNone
    let elements ← values.mapM (element kind)
    return ⟨title, .null, tags, category, columns, elements⟩

/-- The elements as a value. -/
def elementsJson (copy : Copy) : Json := .arr (copy.elements.map Element.toJson)

/-- The fields that saving sends. -/
def payload (kind : Entry.Kind) (copy : Copy) : Record :=
  match kind with
  | .image => [("description", copy.description), ("tags", .arr copy.tags)]
  | kind =>
    ([("content", copy.title), ("tags", .arr copy.tags), ("category", copy.category)] : Record) ++
      (if kind = .table then [("columns", .arr copy.columns)] else [] : Record) ++
      ([(elementsField kind, copy.elementsJson)] : Record)

end Copy

/-- Where a revision stands: at the menu, or waiting for the input that an
option asks for. -/
inductive Place where
  | menu
  | title
  | description
  | columns
  | add
  | selectEdit
  | edit (index : Nat)
  | selectDelete
  | reorder
  | tags
  | category
deriving DecidableEq

namespace Place

/-- The index of the element that is being replaced, if one is. -/
def index? : Place → Option Nat
  | .edit index => some index
  | _ => none

end Place

/-- A memory being revised. -/
structure Revision where
  kind : Entry.Kind
  memory : Record
  copy : Copy
  place : Place

namespace Revision

/-- The id of the memory, as it was read. -/
def memoryId (revision : Revision) : String := (Record.get revision.memory "id").text

/-- The memory with the fields of the working copy. -/
def revised (revision : Revision) : Record :=
  Record.merge revision.memory (revision.copy.payload revision.kind)

end Revision

-- ============================================================== names

namespace Entry.Kind

/-- The word for one element of an entry. -/
def singular : Entry.Kind → String
  | .table => "row"
  | .list => "item"
  | .timeline => "event"
  | .image => ""

/-- The word for the elements of an entry. -/
def plural (kind : Entry.Kind) : String := kind.singular ++ "s"

/-- The word for one element at the head of a sentence. -/
def singularTitle : Entry.Kind → String
  | .table => "Row"
  | .list => "Item"
  | .timeline => "Event"
  | .image => ""

/-- The word for the elements at the head of a sentence. -/
def pluralTitle (kind : Entry.Kind) : String := kind.singularTitle ++ "s"

end Entry.Kind

/-- The name of a place in a revision of some kind. -/
def Place.name (kind : Entry.Kind) : Place → String
  | .menu => "menu"
  | .title => "title"
  | .description => "description"
  | .columns => "columns"
  | .add => "add_" ++ kind.singular
  | .selectEdit => "select_edit_" ++ kind.singular
  | .edit _ => "edit_" ++ kind.singular
  | .selectDelete => "select_delete_" ++ kind.singular
  | .reorder => "reorder"
  | .tags => "tags"
  | .category => "category"

end Daybook
