/-
Revising an entry, line by line.

`cancel` and `exit` leave a revision anywhere and save nothing.  At the
menu, `save` sends the working copy and any other line is a choice.  At
any other place the line is the input that the place waits for; what is
rejected is asked for again, and what is taken leads back to the menu.
-/
import Daybook.Backend.Images
import Daybook.Backend.Memories
import Daybook.Revision.Menu
import Daybook.Revision.Move
import Daybook.Text.Pieces
import Daybook.World

namespace Daybook.Revision

open Message (reply note)
open Text (namesIn cellsIn)

/-- Back at the menu, with a message and the menu shown. -/
def back (revision : Revision) (message : Message) : Turn Revision :=
  .go { revision with place := .menu } (.ok (message :: menuMessages revision.kind))

/-- The line is rejected; the place stays. -/
def reject (revision : Revision) (reason : String) : Turn Revision :=
  .go revision (.ok [note reason])

/-- The revision with other elements. -/
def withElements (revision : Revision) (elements : List Element) : Revision :=
  { revision with copy := { revision.copy with elements := elements } }

-- =========================================================== elements

/-- Reads an element of a revision's kind from a line, or says why it is
rejected. -/
def readElement (revision : Revision) (text : String) : Except String Element :=
  match revision.kind with
  | .table =>
    let values := cellsIn text
    if values.length = revision.copy.columns.length then .ok (.row (values.map .ofText))
    else .error ("Row should have " ++ revision.width ++ " values (you entered " ++
      toString values.length ++ "). Try again:")
  | .timeline =>
    if text = "" then .error "Please enter the event (TIME - DESCRIPTION or just DESCRIPTION):"
    else
      let event := Entry.Event.read text
      .ok (.event (.str event.time) (.str event.description))
  | _ =>
    if text = "" then .error "Please enter some text for this item:" else .ok (.item (.str text))

/-- What is said of an element that was just read. -/
def elementText (element : Element) : String :=
  match element.shown with
  | .ok text => text
  | .error _ => ""

/-- What is said on adding an element as the `count`th. -/
def addedText (kind : Entry.Kind) (count : Nat) (element : Element) : String :=
  let text := elementText element
  match kind with
  | .table => "Row " ++ toString count ++ " added: " ++ text
  | .timeline => "Event added: \"" ++ text ++ "\""
  | _ => "Item added: \"" ++ text ++ "\""

/-- What is said on replacing the element with a number. -/
def updatedText (kind : Entry.Kind) (number : Nat) (element : Element) : String :=
  let text := elementText element
  match kind with
  | .table => "Row " ++ toString number ++ " updated: " ++ text
  | .timeline => "Event " ++ toString number ++ " updated."
  | _ => "Item " ++ toString number ++ " updated to: \"" ++ text ++ "\""

/-- The index of the element whose number is typed. -/
def pick? (revision : Revision) (text : String) : Option Nat :=
  match Text.integer? text.toList with
  | some number =>
    if 1 ≤ number ∧ number ≤ (revision.copy.elements.length : Int) then some (number.toNat - 1)
    else none
  | none => none

/-- Asks again for the number of an element. -/
def rejectNumber (revision : Revision) : Turn Revision :=
  revision.reject ("Please enter a valid " ++ revision.kind.singular ++ " number (1-" ++
    toString revision.copy.elements.length ++ "):")

-- ============================================================= inputs

/-- Takes new column names; the rows are fitted to them. -/
def takeColumns (revision : Revision) (text : String) : Turn Revision :=
  match namesIn text with
  | [] => revision.reject "Please enter at least one column name."
  | names =>
    let fit : Element → Element
      | .row values => .row (Entry.fitRow (.str "") names.length values)
      | other => other
    let copy := { revision.copy with
      columns := names.map .ofText
      elements := revision.copy.elements.map fit }
    { revision with copy := copy }.back (reply ("Columns updated: " ++ " | ".intercalate names))

/-- Takes an element to be added at the end. -/
def takeAdded (revision : Revision) (text : String) : Turn Revision :=
  match revision.readElement text with
  | .error reason => revision.reject reason
  | .ok element =>
    let elements := revision.copy.elements ++ [element]
    (revision.withElements elements).back
      (reply (addedText revision.kind elements.length element))

/-- Takes the number of an element to be replaced. -/
def takeEditNumber (revision : Revision) (text : String) : Turn Revision :=
  match revision.pick? text with
  | none => revision.rejectNumber
  | some index =>
    match revision.copy.elements[index]? with
    | none => revision.rejectNumber
    | some element =>
      let entered := { revision with place := .edit index }
      .go entered (entered.editPrompt index element)

/-- Takes an element to stand at an index. -/
def takeEdited (revision : Revision) (index : Nat) (text : String) : Turn Revision :=
  match revision.readElement text with
  | .error reason => revision.reject reason
  | .ok element =>
    (revision.withElements (revision.copy.elements.set index element)).back
      (reply (updatedText revision.kind (index + 1) element))

/-- Takes the number of an element to be deleted. -/
def takeDeleteNumber (revision : Revision) (text : String) : Turn Revision :=
  match revision.pick? text with
  | none => revision.rejectNumber
  | some index =>
    let elements := revision.copy.elements.eraseIdx index
    (revision.withElements elements).back
      (reply (revision.kind.singularTitle ++ " " ++ toString (index + 1) ++ " deleted. " ++
        toString elements.length ++ " " ++ revision.kind.plural ++ " remaining."))

/-- Takes the two positions of a move. -/
def takeMove (revision : Revision) (text : String) : Turn Revision :=
  let count : Int := revision.copy.elements.length
  let refuse := revision.reject "Invalid. Enter two numbers like: 3 to 1 or 3, 1"
  match positions? text.toList with
  | none => refuse
  | some (source, target) =>
    if 1 ≤ source ∧ source ≤ count ∧ 1 ≤ target ∧ target ≤ count then
      let moved := moveElement (source.toNat - 1) (target.toNat - 1) revision.copy.elements
      (revision.withElements moved).back
        (reply ("Moved " ++ revision.kind.singular ++ " " ++ toString source ++
          " to position " ++ toString target ++ "."))
    else refuse

/-- Takes new tags. -/
def takeTags (revision : Revision) (text : String) : Turn Revision :=
  let tags := if Text.lowercase text = "clear" then [] else namesIn text
  let message := if tags = [] then "Tags cleared." else "Tags updated: " ++ ", ".intercalate tags
  { revision with copy := { revision.copy with tags := tags.map .ofText } }.back (reply message)

/-- Takes a new category. -/
def takeCategory (revision : Revision) (text : String) : Turn Revision :=
  let cleared : Bool := Text.lowercase text = "clear" ∨ text = ""
  let category : Json := if cleared then .null else .str text
  let message := if cleared then "Category cleared." else "Category updated: " ++ text
  { revision with copy := { revision.copy with category := category } }.back (reply message)

/-- Takes the input that a place waits for. -/
def take (revision : Revision) (text : String) : Turn Revision :=
  match revision.place with
  | .menu => revision.atMenu (Text.lowercase text)
  | .title =>
    { revision with copy := { revision.copy with title := .str text } }.back
      (reply ("Title updated to: \"" ++ text ++ "\""))
  | .description =>
    { revision with copy := { revision.copy with description := .str text } }.back
      (reply ("Description updated to: \"" ++ text ++ "\""))
  | .columns => revision.takeColumns text
  | .add => revision.takeAdded text
  | .selectEdit => revision.takeEditNumber text
  | .edit index => revision.takeEdited index text
  | .selectDelete => revision.takeDeleteNumber text
  | .reorder => revision.takeMove text
  | .tags => revision.takeTags text
  | .category => revision.takeCategory text

-- ============================================================= saving

/-- Sends the working copy: to the memory, and for an image also to the
image itself if its id is known. -/
def send (revision : Revision) (site : Backend.Site) : Backend.Call Unit := do
  let fields := revision.copy.payload revision.kind
  let _ ← site.updateMemory revision.memoryId fields
  let image := Record.get revision.memory "image_id"
  if revision.kind = .image ∧ image.isVacant = false then
    let _ ← site.updateImage image.text fields

/-- Saves the working copy; if that fails the revision goes on. -/
def save (revision : Revision) (world : World) : Turn Revision × World :=
  match world.run (revision.send world.site) with
  | (.ok _, world) =>
    (.done revision (.ok [reply (revision.kind.label ++ " #" ++ revision.memoryId ++
      " updated successfully!")]), world)
  | (.error (.call e), world) =>
    (.held revision (.ok [note ("Error saving: " ++ e.message)]) e.message, world)
  | (.error (.file e), world) =>
    (.held revision (.ok [note ("Error saving: " ++ e.message)]) e.message, world)
  | (.error (.fault f), world) => (.go revision (.error f), world)

-- ============================================================== lines

/-- Opens a revision of a memory.  Its type names the kind of entry. -/
def start (memory : Record) : Except Fault (Turn Revision) := do
  let kind ← match Record.get memory "type" with
    | .ofText name =>
      match Entry.Kind.ofName? name with
      | some kind => pure kind
      | none => throw .unknownKind
    | .arr _ => throw .notACollection
    | .obj _ => throw .notACollection
    | _ => throw .unknownKind
  let copy ← Copy.load kind memory
  let revision : Revision := ⟨kind, memory, copy, .menu⟩
  let title := Record.get memory (if kind = .image then "description" else "content")
  let heading := reply ("Editing " ++ kind.label ++ " #" ++ revision.memoryId ++ ": \"" ++
    (title.orElse (.str "Untitled")).text ++ "\"")
  return .go revision (.ok (heading :: menuMessages kind))

/-- Takes one line of input. -/
def answer (revision : Revision) (line : String) (world : World) : Turn Revision × World :=
  let text := Text.trimmed line
  let word := Text.lowercase text
  if word ∈ cancelWords then
    (.stop revision [reply (revision.kind.label ++ " editing cancelled. No changes saved.")], world)
  else if revision.place = .menu ∧ word = "save" then revision.save world
  else (revision.take text, world)

end Daybook.Revision
