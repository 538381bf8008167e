/-
The questions of a form and how it takes an answer to each.

An answer is taken into the draft, rejected with the draft as it was, or
it calls the whole form off.
-/
import Daybook.Form.Basic
import Daybook.Message
import Daybook.Text.Pieces

namespace Daybook

open Message (reply note)
open Text (namesIn cellsIn)

namespace FormStep

/-- The number of elements of a collection. -/
def sizeOf (value : Json) : Except Fault Nat := value.elements.map List.length

/-- What a step asks. -/
def prompt (kind : Entry.Kind) (draft : Draft) : FormStep → Except Fault (List Message)
  | .title =>
    let noun := kind.name
    .ok [reply (match kind with
      | .table => "Let's create a table! First, what's the title/heading for this table? (or type 'skip' to skip)"
      | _ => "Let's create a " ++ noun ++ "! First, what's the title for this " ++ noun ++ "? (or type 'skip')")]
  | .columns => .ok [reply "Enter column names separated by commas (e.g., Name, Age, City):"]
  | .rows => do
    let width ← sizeOf (draft.get "columns")
    return [
      reply ("Now enter row data. Each row should have " ++ toString width ++ " values separated by commas."),
      reply "Type 'done' when finished adding rows."]
  | .items =>
    .ok [
      reply "Now add your list items. Enter one item at a time.",
      note "Type 'done' when finished adding items."]
  | .events =>
    .ok [
      reply "Now add your timeline events.",
      note "Format: TIME - DESCRIPTION (e.g., '9:00 AM - Wake up' or just 'Morning - Wake up')",
      note "Type 'done' when finished adding events."]
  | .tags =>
    .ok [reply (match kind with
      | .image => "Add tags (comma-separated) or type 'skip':"
      | _ => "Add tags for this " ++ kind.name ++ " (comma-separated, or 'skip'):")]
  | .category => .ok [reply ("Enter a category for this " ++ kind.name ++ " (or 'skip'):")]
  | .select => .ok [note "Select an image file to save."]
  | .description => .ok [note "Enter a description for this image (or type 'skip'):"]
  | .album => .ok [note "Enter an album name (or type 'skip'):"]
  | .confirm => do
    let tags ← Entry.tagsText (← (draft.get "tags").elementsOrNone)
    return [
      reply "Ready to upload the image with the following:",
      note ("  Description: " ++ Entry.valueText (draft.get "description")),
      note ("  Tags: " ++ tags),
      note ("  Album: " ++ Entry.valueText (draft.get "album")),
      note "Type 'save' to upload or 'cancel' to abort."]

/-- What is said if a collecting step is done before it holds anything. -/
def emptyNote : FormStep → String
  | .rows => "Please add at least one row of data."
  | .items => "Please add at least one item to the list."
  | .events => "Please add at least one event to the timeline."
  | _ => ""

/-- What a collecting step asks after an answer. -/
def moreNote : FormStep → String
  | .rows => "Enter next row or type 'done' to finish:"
  | .items => "Add another item or type 'done' to finish:"
  | .events => "Add another event or type 'done' to finish:"
  | _ => ""

/-- What comes of an answer. -/
inductive Taking where
  /-- The answer is in the draft. -/
  | taken (draft : Draft) (messages : List Message)
  /-- The step asks again. -/
  | rejected (reason : String)
  /-- The form is called off. -/
  | calledOff (reason : String)

/-- The words that confirm an upload. -/
def saveWords : List String := ["save", "yes", "y"]

/-- Takes an answer, trimmed of blanks, into the draft. -/
def take (draft : Draft) (text : String) : FormStep → Except Fault Taking
  | .title => .ok (.taken (draft.set "title" (.str text)) [])
  | .columns =>
    match namesIn text with
    | [] => .ok (.rejected "Please enter at least one column name.")
    | names =>
      .ok (.taken (draft.set "columns" (.strings names))
        [reply ("Columns: " ++ " | ".intercalate names)])
  | .rows => do
    let values := cellsIn text
    let width ← sizeOf (draft.get "columns")
    if values.length ≠ width then
      return .rejected ("Row should have " ++ toString width ++ " values (you entered " ++
        toString values.length ++ "). Try again:")
    let (draft, count) ← draft.push "rows" (.strings values)
    return .taken draft [reply ("Row " ++ toString count ++ " added: " ++ " | ".intercalate values)]
  | .items => do
    let (draft, count) ← draft.push "items" (.str text)
    return .taken draft [reply ("  " ++ toString count ++ ". " ++ text)]
  | .events => do
    let event := Entry.Event.read text
    let (draft, count) ← draft.push "events" event.toJson
    let shown := if event.time = "" then "• " ++ event.description else event.shown Entry.dash
    return .taken draft [reply ("  " ++ toString count ++ ". " ++ shown)]
  | .tags => .ok (.taken (draft.set "tags" (.strings (namesIn text))) [])
  | .category => .ok (.taken (draft.set "category" (.str text)) [])
  | .select => .ok (.rejected "Please select an image file to continue.")
  | .description => .ok (.taken (draft.set "description" (.str text)) [])
  | .album => .ok (.taken (draft.set "album" (.str text)) [])
  | .confirm =>
    .ok (if Text.lowercase text ∈ saveWords then .taken draft []
      else .calledOff "Image upload cancelled.")

end FormStep
end Daybook
