/-
Rows, tags, events and whole memories as one line of text.

Memories come from outside, so these work on JSON values and say which
shape they need of them.
-/
import Daybook.Entry.Event
import Daybook.Json.Show

namespace Daybook.Entry

/-- What is shown where there is nothing. -/
def noneLabel : String := "(none)"

/-- The text, or a label if it is empty. -/
def orNone (text : String) : String := if text = "" then noneLabel else text

/-- The values of a row, with bars between them. -/
def rowText (row : List Json) : Except Fault String := Json.joined " | " row

/-- Tags with commas between them. -/
def tagsText (tags : List Json) : Except Fault String :=
  (Json.joined ", " tags).map orNone

/-- A value, or a label if it says nothing. -/
def valueText (value : Json) : String := (value.orElse (.str noneLabel)).text

/-- An event shown with a separator between its time and its description;
the description alone if there is no time. -/
def eventText (time description : Json) (separator : String) : Except Fault Json :=
  let description := description.orElse (.str "")
  match time.orElse (.str "") with
  | .str time =>
    let time := Text.trimmed time.text
    .ok (if time = "" then description
      else .str (time ++ " " ++ separator ++ " " ++ description.text))
  | _ => .error .notAString

/-- Events with texts for their fields are shown as they read. -/
theorem eventText_str (event : Event) (separator : String) :
    eventText (.str event.time) (.str event.description) separator =
      .ok (.str (event.shown separator)) := by
  have vacant : ∀ s : String, (Json.str s).orElse (.str "") = .str s := by
    intro s
    by_cases h : s = "" <;> simp [Json.orElse, Json.isVacant, h]
  by_cases h : Text.trimmed event.time = "" <;>
    simp [eventText, Event.shown, vacant, h, Json.text]

/-- The separator of an event that is shown as part of an entry. -/
def dash : String := "—"

/-- An event as a value. -/
def Event.toJson (event : Event) : Json :=
  .obj [("time", .str event.time), ("description", .str event.description)]

/-- A memory in one line: its id, its type and its text. -/
def summary (memory : Json) : Except Fault String := do
  let id := match memory with
    | .obj fields => (Record.get? fields "id").getD (.str "?")
    | _ => .null
  let type ← memory.field "type"
  let content ← memory.field "content"
  let description ← memory.field "description"
  let said := content.orElse (description.orElse (.str id.text))
  return "#" ++ id.text ++ " [" ++ (type.orElse (.str "text")).text ++ "] " ++ said.text

/-- A row brought to a width, with `filler` in the places that it lacks.
A negative width drops as many values from the end. -/
def fitRow {α : Type} (filler : α) (width : Int) (row : List α) : List α :=
  match width with
  | .ofNat n => row.take n ++ List.replicate (n - row.length) filler
  | .negSucc n => row.take (row.length - (n + 1))

end Daybook.Entry
