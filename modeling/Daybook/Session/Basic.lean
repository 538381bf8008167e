/-
A session of the diary: who uses it, what is going on, and the memories
shown last.

At most one dialogue goes on at a time: a confirmation, a form or a
revision.  The gate is kept beside it and holds the action that waits for
a confirmation.
-/
import Daybook.Form.Step
import Daybook.Gate
import Daybook.Instruction.Read
import Daybook.Revision.Step

namespace Daybook

/-- What a confirmation is asked for. -/
inductive Deed where
  | delete (deletion : Deletion)
  | edit (memory : Record)

/-- The dialogue that is going on. -/
inductive Flow where
  | idle
  | confirming
  | building (form : Form)
  | editing (revision : Revision)

/-- A session of the diary. -/
structure Session where
  username : String
  flow : Flow
  gate : Gate Deed
  visible : List Json
  previews : Nat

/-- What a step of a session comes to: the messages or the fault, and the
session and its surroundings afterwards. -/
structure Outcome where
  reply : Except Fault (List Message)
  session : Session
  world : World

namespace Session

/-- A session at its start. -/
def start (username : String) : Session :=
  { username := username, flow := .idle, gate := .empty, visible := [], previews := 0 }

/-- What is said at the start of a session. -/
def greeting (session : Session) : List Message :=
  [.note ("Welcome, " ++ session.username ++ ". Type 'help' for commands.")]

/-- Whether a dialogue is going on. -/
def active (session : Session) : Bool :=
  match session.flow with
  | .idle => false
  | _ => true

/-- Whether a form waits for the file of an image. -/
def awaitsFile (session : Session) : Bool :=
  match session.flow with
  | .building form => form.kind = .image ∧ form.step? = some .select
  | _ => false

-- ================================================== visible memories

/-- Whether a memory belongs to a deletion by tags and category: it has
one of the tags, or the category. -/
def isMatch (category : Option String) (tags : List String) (memory : Json) :
    Except Fault Bool := do
  let tagged ← if tags.isEmpty then .ok false
    else do
      let own ← (← memory.field "tags").elementsOrNone
      if own.any fun | .arr _ => true | .obj _ => true | _ => false then throw .notStrings
      pure (own.any fun | .ofText tag => tags.contains tag | _ => false)
  if tagged then return true
  match category with
  | none => return false
  | some category =>
    if category = "" then return false
    match ← memory.field "category" with
    | .ofText own => return own == category
    | _ => return false

/-- The memories for which a test fails, in order. -/
def dropWhere (test : Json → Except Fault Bool) : List Json → Except Fault (List Json)
  | [] => .ok []
  | memory :: rest => do
    let drop ← test memory
    let kept ← dropWhere test rest
    return if drop then kept else memory :: kept

/-- Whether the id of a memory is shown as `id`. -/
def hasId (id : String) (memory : Json) : Except Fault Bool :=
  (memory.field "id").map fun own => own.text == id

/-- The first memory with an id. -/
def findVisible (id : String) : List Json → Except Fault (Option Json)
  | [] => .ok none
  | memory :: rest => do if ← hasId id memory then return some memory else findVisible id rest

/-- Puts a memory in the place of those with its id, up to the first value
that is no memory. -/
def replaceVisible (memory : Record) : List Json → List Json × Except Fault Unit
  | [] => ([], .ok ())
  | old :: rest =>
    match hasId (Record.get memory "id").text old with
    | .error f => (old :: rest, .error f)
    | .ok same =>
      let (rest, result) := replaceVisible memory rest
      ((if same then .obj memory else old) :: rest, result)

/-- Whether a memory stands for an image that is not saved yet. -/
def isPreview (memory : Json) : Except Fault Bool :=
  (memory.field "preview").map fun mark => !mark.isVacant

/-- The stand-in for an image that was selected. -/
def previewOf (number : Nat) (filename : String) : Json :=
  .obj [("id", .str ("preview-" ++ toString number)), ("type", .str "image"),
    ("content", .str filename), ("description", .str ""), ("preview", .bool true)]

end Session
end Daybook
