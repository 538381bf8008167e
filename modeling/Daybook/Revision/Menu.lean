/-
The menu of a revision: its options, and what each of them shows.

An option is chosen by its number or by a word.  Most options lead to a
place that waits for input; some are refused while there is too little to
work on, and then the menu stays.
-/
import Daybook.Revision.Basic
import Daybook.Text.Letter

namespace Daybook

open Message (reply note)

/-- What an option of the menu does. -/
inductive Choice where
  | title
  | description
  | columns
  | add
  | selectEdit
  | selectDelete
  | reorder
  | tags
  | category
  | view
deriving DecidableEq

/-- An option of the menu. -/
structure MenuItem where
  number : String
  words : List String
  choice : Choice
  label : String

/-- The menu of a kind of entry. -/
def menu (kind : Entry.Kind) : List MenuItem :=
  match kind with
  | .image => [
      ⟨"1", ["description"], .description, "Description"⟩,
      ⟨"2", ["tags"], .tags, "Tags"⟩,
      ⟨"3", ["view"], .view, "View current image"⟩]
  | kind =>
    let one := kind.singular
    let many := kind.plural
    [
      ⟨"1", ["title"], .title, "Title"⟩,
      ⟨"2", ["add", "add " ++ one], .add, "Add " ++ one⟩,
      ⟨"3", ["edit", "edit " ++ one], .selectEdit, "Edit " ++ one⟩,
      ⟨"4", ["delete", "delete " ++ one], .selectDelete, "Delete " ++ one⟩,
      ⟨"5", ["reorder", "reorder " ++ many], .reorder, "Reorder " ++ many⟩,
      ⟨"6", ["tags"], .tags, "Tags"⟩,
      ⟨"7", ["category"], .category, "Category"⟩,
      ⟨"8", ["view"], .view, "View current " ++ kind.name⟩] ++
    (if kind = .table then [⟨"9", ["columns"], .columns, "Columns"⟩] else [])

/-- The menu as it is shown. -/
def menuMessages (kind : Entry.Kind) : List Message :=
  [note "What would you like to edit?"] ++
    (menu kind).map (fun item => note ("  " ++ item.number ++ ". " ++ item.label)) ++
    [note "  save - Save changes", note "  cancel - Discard changes"]

/-- The number of the last option. -/
def lastNumber (kind : Entry.Kind) : String :=
  match (menu kind).getLast? with
  | some item => item.number
  | none => ""

namespace Revision

/-- Elements in lines numbered from `first` on. -/
def numbered (first : Nat) : List Element → Except Fault (List Message)
  | [] => .ok []
  | element :: elements => do
    let text ← element.shown
    return note ("  " ++ toString first ++ ". " ++ text) :: (← numbered (first + 1) elements)

/-- The elements, and what is asked about them. -/
def listing (revision : Revision) (question : String) : Except Fault (List Message) := do
  let lines ← numbered 1 revision.copy.elements
  return [reply ("Current " ++ revision.kind.plural ++ ":")] ++ lines ++ [note question]

/-- The number of columns. -/
def width (revision : Revision) : String := toString revision.copy.columns.length

/-- The column names in one line. -/
def columnsText (revision : Revision) : Except Fault String :=
  Entry.rowText revision.copy.columns

/-- The working copy as it is shown. -/
def preview (revision : Revision) : Except Fault (List Message) := do
  let copy := revision.copy
  match revision.kind with
  | .image =>
    let tags ← Entry.tagsText copy.tags
    return [
      reply ("Image #" ++ revision.memoryId ++ ":"),
      note ("  Description: " ++ Entry.valueText copy.description),
      note ("  Tags: " ++ tags)]
  | kind =>
    let columns ← if kind = .table then
        revision.columnsText.map fun text => [reply ("Columns: " ++ Entry.orNone text)]
      else .ok []
    let elements ← if copy.elements.isEmpty then .ok [note ("  (no " ++ kind.plural ++ ")")]
      else (numbered 1 copy.elements).map (reply (kind.pluralTitle ++ ":") :: ·)
    let tags ← Entry.tagsText copy.tags
    return [
      reply ("═══ " ++ kind.label ++ " Preview ═══"),
      reply ("Title: " ++ Entry.valueText copy.title)] ++
      columns ++ elements ++
      [reply ("Tags: " ++ tags), reply ("Category: " ++ Entry.valueText copy.category)]

/-- The line between a preview and the menu. -/
def divider : String := "─────────────────────"

/-- What a new element is asked for with. -/
def addPrompt (revision : Revision) : Except Fault (List Message) :=
  match revision.kind with
  | .table => do
    let columns ← revision.columnsText
    return [
      note ("Enter row values (" ++ revision.width ++ " values, comma-separated):"),
      note ("Columns: " ++ columns)]
  | .timeline => .ok [note "Enter the new event (TIME - DESCRIPTION or just DESCRIPTION):"]
  | _ => .ok [note "Enter the new item to add:"]

/-- What the replacement of the element at an index is asked for with. -/
def editPrompt (revision : Revision) (index : Nat) (element : Element) :
    Except Fault (List Message) := do
  let current ← element.shownWith "-"
  match revision.kind with
  | .table =>
    return [
      reply ("Current row " ++ toString (index + 1) ++ ": " ++ current),
      note ("Enter new values (" ++ revision.width ++ " values, comma-separated):")]
  | .timeline =>
    return [
      reply ("Current: \"" ++ current ++ "\""),
      note "Enter new event (TIME - DESCRIPTION or just DESCRIPTION):"]
  | _ =>
    return [
      reply ("Current: \"" ++ current ++ "\""),
      note "Enter new text for this item:"]

/-- Why a choice is refused, if it is. -/
def refusal? (revision : Revision) (choice : Choice) : Option String :=
  let many := revision.kind.plural
  let elements := revision.copy.elements
  match choice with
  | .add =>
    if revision.kind = .table ∧ revision.copy.columns.isEmpty then
      some "Please add columns first (option 9)."
    else none
  | .selectEdit =>
    if elements.isEmpty then
      some ("No " ++ many ++ " to edit. Add " ++ many ++ " first (option 2).")
    else none
  | .selectDelete => if elements.isEmpty then some ("No " ++ many ++ " to delete.") else none
  | .reorder =>
    if elements.length < 2 then some ("Need at least 2 " ++ many ++ " to reorder.") else none
  | _ => none

/-- Where a choice leads. -/
def placeOf : Choice → Place
  | .title => .title
  | .description => .description
  | .columns => .columns
  | .add => .add
  | .selectEdit => .selectEdit
  | .selectDelete => .selectDelete
  | .reorder => .reorder
  | .tags => .tags
  | .category => .category
  | .view => .menu

/-- What is shown on a choice. -/
def shownOn (revision : Revision) : Choice → Except Fault (List Message)
  | .title => .ok [
      reply ("Current title: \"" ++ Entry.valueText revision.copy.title ++ "\""),
      note "Enter new title:"]
  | .description => .ok [
      reply ("Current description: \"" ++ Entry.valueText revision.copy.description ++ "\""),
      note "Enter new description:"]
  | .columns => do
    let columns ← revision.columnsText
    return [
      reply ("Current columns: " ++ Entry.orNone columns),
      note "Enter new column names (comma-separated):"]
  | .add => revision.addPrompt
  | .selectEdit => revision.listing ("Enter " ++ revision.kind.singular ++ " number to edit:")
  | .selectDelete => revision.listing ("Enter " ++ revision.kind.singular ++ " number to delete:")
  | .reorder => revision.listing "Enter: [from] to [to] (e.g., '3 to 1' or '3, 1'):"
  | .tags => do
    let tags ← Entry.tagsText revision.copy.tags
    return [
      reply ("Current tags: " ++ tags),
      note "Enter new tags (comma-separated) or 'clear' to remove all:"]
  | .category => .ok [
      reply ("Current category: " ++ Entry.valueText revision.copy.category),
      note "Enter new category or 'clear' to remove:"]
  | .view => do
    let shown ← revision.preview
    return shown ++ [note divider] ++ menuMessages revision.kind

/-- Follows a choice.  The place is entered before its prompt is made. -/
def choose (revision : Revision) (choice : Choice) : Turn Revision :=
  match revision.refusal? choice with
  | some reason => .go revision (.ok [note reason])
  | none =>
    let entered := { revision with place := placeOf choice }
    .go entered (entered.shownOn choice)

/-- Takes a line at the menu, in lower case. -/
def atMenu (revision : Revision) (word : String) : Turn Revision :=
  match (menu revision.kind).find? fun item => word = item.number ∨ word ∈ item.words with
  | some item => revision.choose item.choice
  | none =>
    .go revision (.ok [note ("Invalid option. Please enter 1-" ++ lastNumber revision.kind ++
      ", 'save', or 'cancel'.")])

end Revision
end Daybook
