/-
Carrying out instructions, and actions once they are confirmed.
-/
import Daybook.Session.Basic
import Daybook.Session.Help

namespace Daybook

open Message (reply note)

-- =========================================================== deletion

/-- What a deletion reaches. -/
inductive Scope where
  | everything
  | matching (category : Option String) (tags : List String)
  | single (target : Target) (id : String)
deriving DecidableEq

/-- The scope of a deletion: everything goes before filters, and filters
go before the id. -/
def Deletion.scope? (deletion : Deletion) : Option Scope :=
  if deletion.everything then some .everything
  else if deletion.tags ≠ [] ∨ deletion.category.isSome then
    some (.matching deletion.category deletion.tags)
  else deletion.id.map (.single deletion.target)

/-- The question asked before a deletion. -/
def Scope.question : Scope → String
  | .everything =>
    "Are you sure you want to DELETE ALL memories? This cannot be undone! (yes/no)"
  | .matching category [] =>
    "Are you sure you want to delete all memories in category: " ++ category.getD "" ++ "? (yes/no)"
  | .matching _ tags =>
    "Are you sure you want to delete all memories with tags: " ++ ", ".intercalate tags ++ "? (yes/no)"
  | .single target id =>
    "Are you sure you want to delete " ++ target.name ++ " #" ++ id ++ "? (yes/no)"

namespace Session

/-- The session goes on with some messages. -/
def say (session : Session) (messages : List Message) (world : World) : Outcome :=
  ⟨.ok messages, session, world⟩

/-- The session stopped at a fault. -/
def stopAt (session : Session) (f : Fault) (world : World) : Outcome := ⟨.error f, session, world⟩

/-- What follows an action that did not succeed: the message on a failed
call, or the fault. -/
def troubled (session : Session) (trouble : Backend.Trouble)
    (onCall : Backend.CallError → String) (world : World) : Outcome :=
  match trouble with
  | .call e => session.say [note (onCall e)] world
  | .file e => session.say [note ("Error: " ++ e.message)] world
  | .fault f => session.stopAt f world

/-- The message on a failed call. -/
def errorText (e : Backend.CallError) : String := "Error: " ++ e.message

/-- The message on a failed call, or another one if what was asked for is
not there. -/
def errorTextOr (missing : String) (e : Backend.CallError) : String :=
  if e.notFound then missing else errorText e

/-- Opens the gate for an action and asks for its confirmation. -/
def confirm (session : Session) (action : Pending Deed) (world : World) : Outcome :=
  match session.gate.request action with
  | .error f => session.stopAt f world
  | .ok gate => { session with gate := gate, flow := .confirming }.say [reply action.prompt] world

-- =========================================================== creating

/-- The memory for a text. -/
def textPayload (content : String) (category : Option String) (tags : List String) : Record :=
  [("type", .str "text"), ("content", .str content), ("category", .ofOption category),
    ("tags", .strings tags)]

/-- The sentence on a memory that was created. -/
def createdText (category : Option String) (tags : List String) : String :=
  "Memory created successfully." ++
    (if tags = [] then "" else " Tags: " ++ ", ".intercalate tags ++ ".") ++
    (match category with
      | some category => if category = "" then "" else " Category: " ++ category ++ "."
      | none => "")

/-- Creates a memory, or queues it if the backend is out of reach. -/
def createMemory (session : Session) (content : String) (category : Option String)
    (tags : List String) (world : World) : Outcome :=
  if content = "" then
    session.say [note "Please provide memory content: create memory: \"Your text\""] world
  else
    let payload := textPayload content category tags
    match world.run (world.site.createMemory payload) with
    | (.ok created, world) =>
      { session with visible := .obj created :: session.visible }.say
        [reply (createdText category tags)] world
    | (.error (.call e), world) =>
      match world.queueUnreached e "text" (some (.obj payload)) with
      | .queued world => session.say [reply "Memory saved locally. (Backend unavailable)"] world
      | .failed e => session.say [note ("Error: could not save locally: " ++ e.message)] world
      | .faulty f world => session.stopAt f world
      | .declined => session.say [note (errorText e)] world
    | (.error trouble, world) => session.troubled trouble errorText world

/-- Opens a form. -/
def openForm (session : Session) (kind : Entry.Kind) (seed : Record) (world : World) : Outcome :=
  let form := Form.start kind seed
  ⟨form.prompt, { session with flow := .building form }, world⟩

-- ============================================================ editing

/-- The fields that a change sends. -/
def changeFields : Change → Record
  | .append text => [("add", .str text)]
  | .replace text => [("content", .str text)]

/-- Shows a memory in the place of those with its id. -/
def refresh (session : Session) (memory : Record) (messages : List Message) (world : World) :
    Outcome :=
  let (visible, result) := replaceVisible memory session.visible
  ⟨result.map fun _ => messages, { session with visible := visible }, world⟩

/-- Changes the text of a memory that is not structured. -/
def changeText (session : Session) (id : String) (memory : Record) (change : Option Change)
    (world : World) : Outcome :=
  match change with
  | none =>
    session.say [note "Please provide the new content: edit memory #12: \"New content\""] world
  | some change =>
    match world.run (world.site.updateMemory id (changeFields change)) with
    | (.error trouble, world) => session.troubled trouble errorText world
    | (.ok _, world) =>
      let messages := [reply "Memory updated successfully."]
      match change with
      | .append _ => session.say messages world
      | .replace text => session.refresh (Record.set memory "content" (.str text)) messages world

/-- Whether a type is that of a structured entry; an array or an object cannot
be looked up as one. -/
def isStructured (type : Json) : Except Fault Bool :=
  match type with
  | .ofText name => .ok (Entry.Kind.ofName? name).isSome
  | .arr _ => .error .notACollection
  | .obj _ => .error .notACollection
  | _ => .ok false

/-- Edits the memory with an id: a structured entry after a confirmation,
any other at once. -/
def editMemory (session : Session) (id : Option String) (change : Option Change)
    (world : World) : Outcome :=
  match id with
  | none => session.say [note "Please specify memory ID: edit memory #12"] world
  | some id =>
    match world.run (world.site.memory id) with
    | (.error trouble, world) =>
      session.troubled trouble (errorTextOr ("Memory #" ++ id ++ " not found.")) world
    | (.ok memory, world) =>
      let type := (Record.get memory "type").orElse (.str "text")
      match isStructured type with
      | .error f => session.stopAt f world
      | .ok true =>
        let shown := ((Record.get? memory "id").getD (.str id)).text
        let prompt := "Do you want to edit " ++ type.text ++ " #" ++ shown ++ "? (yes/no)"
        session.confirm ⟨"edit", .edit memory, prompt⟩ world
      | .ok false => session.changeText id memory change world

/-- Opens the revision of a memory. -/
def openRevision (session : Session) (memory : Record) (world : World) : Outcome :=
  match Revision.start memory with
  | .error f => session.stopAt f world
  | .ok turn => ⟨turn.reply, { session with flow := .editing turn.state }, world⟩

-- =========================================================== deleting

/-- Asks for the confirmation of a deletion. -/
def delete (session : Session) (deletion : Deletion) (world : World) : Outcome :=
  match deletion.scope? with
  | some scope => session.confirm ⟨"delete", .delete deletion, scope.question⟩ world
  | none =>
    session.say [note ("Please specify: delete memory #12, delete all, " ++
      "delete memories tags: work, or delete memories category: happy")] world

/-- The message when what a deletion names is not there; without an id it
names `None`. -/
def missingText (deletion : Deletion) : String :=
  deletion.target.title ++ " #" ++ (Json.ofOption deletion.id).text ++ " not found."

/-- Deletes every memory, or all that match. -/
def deleteMany (session : Session) (everything : Bool) (category : Option String)
    (tags : List String) (missing : String) (world : World) : Outcome :=
  let action := world.site.deleteMemories everything (.ofOption category) (.strings tags)
  match world.run action with
  | (.error trouble, world) => session.troubled trouble (errorTextOr missing) world
  | (.ok count, world) =>
    if everything then
      { session with visible := [] }.say
        [reply ("All " ++ toString count ++ " memories deleted successfully.")] world
    else
      match dropWhere (isMatch category tags) session.visible with
      | .error f => session.stopAt f world
      | .ok visible =>
        { session with visible := visible }.say
          [reply (toString count ++ " memories deleted successfully.")] world

/-- The id of the image that goes with a memory, if one is to be deleted
with it. -/
def imageOf (id : String) (visible : List Json) : Except Fault (Option String) := do
  match ← findVisible id visible with
  | some (.obj fields) =>
    match Record.get fields "type" with
    | .ofText "image" => return some ((Record.get fields "image_id").orElse (.str id)).text
    | _ => return none
  | _ => return none

/-- Deletes one entry by id: a memory with its image, whether or not that
image is still there, or an image alone. -/
def deleteEntry (site : Backend.Site) (target : Target) (id : String) (visible : List Json) :
    Backend.Call Unit := do
  match target with
  | .memory =>
    match ← Backend.Call.ofExcept (imageOf id visible) with
    | some image =>
      try let _ ← site.deleteImage image catch
        | .call _ => pure ()
        | trouble => throw trouble
    | none => pure ()
    let _ ← site.deleteMemory id
  | _ => let _ ← site.deleteImage id

/-- Whether a memory is the one that was deleted, or its image was. -/
def isDeleted (id : String) (memory : Json) : Except Fault Bool := do
  let own ← memory.field "id"
  let image ← memory.field "image_id"
  return own.text == id || image.text == id

/-- Deletes one entry by id. -/
def deleteOne (session : Session) (target : Target) (id : String) (missing : String)
    (world : World) : Outcome :=
  match world.run (deleteEntry world.site target id session.visible) with
  | (.error trouble, world) => session.troubled trouble (errorTextOr missing) world
  | (.ok _, world) =>
    match dropWhere (isDeleted id) session.visible with
    | .error f => session.stopAt f world
    | .ok visible =>
      { session with visible := visible }.say
        [reply (target.name ++ " #" ++ id ++ " deleted successfully.")] world

/-- Carries out a deletion that was confirmed. -/
def carryOutDelete (session : Session) (deletion : Deletion) (world : World) : Outcome :=
  let missing := missingText deletion
  match deletion.scope? with
  | some .everything => session.deleteMany true none [] missing world
  | some (.matching category tags) => session.deleteMany false category tags missing world
  | some (.single target id) => session.deleteOne target id missing world
  | none => session.say [] world

-- ========================================================= retrieving

/-- The filters of a query that are sent. -/
def queryParams (query : Query) : Record :=
  (match query.category with | some s => [("category", .str s)] | none => [] : Record) ++
    (if query.tags = [] then [] else [("tags", .strings query.tags)] : Record) ++
    (match query.kind with | some kind => [("type", .str kind.name)] | none => [] : Record) ++
    (match query.date with | some s => [("date", .str s)] | none => [] : Record) ++
    (if query.first then [("limit", .int 1)] else [] : Record)

/-- The heading over memories that were found. -/
def foundText (query : Query) (count : Nat) : String :=
  match query.search with
  | some _ => "Found " ++ toString count ++ " memories:"
  | none =>
    let parts := (match query.category with | some s => ["category: " ++ s] | none => []) ++
      (if query.tags = [] then [] else ["tags: " ++ ", ".intercalate query.tags])
    let restricted := if parts = [] then "" else " (" ++ ", ".intercalate parts ++ ")"
    "Retrieved " ++ toString count ++ " memories" ++ restricted ++ "."

/-- Shows the memories that a query asks for. -/
def retrieve (session : Session) (query : Query) (world : World) : Outcome :=
  let params := queryParams query
  let action := match query.search with
    | some text => world.site.searchMemories text params
    | none => world.site.memories params
  match world.run action with
  | (.error trouble, world) => session.troubled trouble errorText world
  | (.ok [], world) =>
    session.say [reply (if query.search.isSome then "No memories found matching your search."
      else "No memories found with those filters.")] world
  | (.ok found, world) =>
    let lines := found.mapM fun memory =>
      (Entry.summary memory).map fun text => note ("  " ++ text)
    ⟨lines.map (reply (foundText query found.length) :: ·), { session with visible := found }, world⟩

-- ======================================================= instructions

/-- Carries out an instruction while no dialogue is going on. -/
def carryOut (session : Session) (instruction : Instruction) (world : World) : Outcome :=
  match instruction with
  | .createMemory content category tags => session.createMemory content category tags world
  | .createTable _ _ => session.openForm .table [] world
  | .createList _ => session.openForm .list [] world
  | .createTimeline _ => session.openForm .timeline [] world
  | .savePicture description tags =>
    session.openForm .image [("description", .ofOption description), ("tags", .strings tags)] world
  | .editMemory id change => session.editMemory id change world
  | .delete deletion => session.delete deletion world
  | .retrieve query => session.retrieve query world
  | .help => session.say (helpLines.map note) world
  | .clear => { session with visible := [] }.say [.wipe, note "Terminal cleared."] world
  | .unknown text =>
    session.say [note ("Unknown command: \"" ++ Text.trimmed text ++
      "\". Type 'help' to see available commands.")] world

end Session
end Daybook
