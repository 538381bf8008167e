/-
The memories kept by the backend: creating, reading, changing, deleting
and searching them.

Filters that say nothing are left out of a request.  Tags are sent as one
text with commas between them.
-/
import Daybook.Backend.Basic
import Daybook.Text.Digit

namespace Daybook.Backend

open Http

/-- Tags as they are sent: a string as it is, a list with commas between
its strings. -/
def tagsText (tags : Json) : Except Fault String :=
  match tags with
  | .str s => .ok s.text
  | tags => do Json.joined "," (← tags.elements)

/-- The tags of a request, if there are any. -/
def tagsParam (tags : Json) : Except Fault Record :=
  if tags.isVacant then .ok [] else (tagsText tags).map fun text => [("tags", .str text)]

/-- The category of a request, if there is one. -/
def categoryParam (category : Json) : Record :=
  if category.isVacant then [] else [("category", category)]

/-- The memories listed in an answer. -/
def listed (content : Record) : Call (List Json) :=
  Call.ofExcept (Record.get content "memories").elementsOrNone

/-- Creates a memory.  The answer holds it whole, or else fields to be
added to the payload. -/
def Site.createMemory (site : Site) (payload : Record) : Call Record := do
  let content ← site.call .post "/memories" none (.json (.obj payload))
  match Record.get content "memory" with
  | .obj memory => pure memory
  | _ => pure (Record.merge payload content)

/-- Reads the memory with an id. -/
def Site.memory (site : Site) (id : String) : Call Record := do
  let content ← site.call .get ("/memories/" ++ id) none .none
  match Record.get content "memory" with
  | .obj memory => pure memory
  | _ => throw (.call ⟨"Memory not found", some 404, true⟩)

/-- The filters that are sent to list memories. -/
def listParams : Record → Except Fault Record
  | [] => .ok []
  | (key, value) :: rest =>
    if value.isUnset then listParams rest
    else do
      let value ← if key = "tags" then do pure (.str (← tagsText value)) else .ok value
      return (key, value) :: (← listParams rest)

/-- Lists the memories that match the filters. -/
def Site.memories (site : Site) (filters : Record) : Call (List Json) := do
  let params ← Call.ofExcept (listParams filters)
  let content ← site.call .get "/memories" (some params) .none
  listed content

/-- Changes fields of the memory with an id. -/
def Site.updateMemory (site : Site) (id : String) (fields : Record) : Call Record :=
  site.call .put ("/memories/" ++ id) none (.json (.obj fields))

/-- Deletes the memory with an id. -/
def Site.deleteMemory (site : Site) (id : String) : Call Record :=
  site.call .delete ("/memories/" ++ id) none .none

/-- A count in an answer: a whole number, or what stands for one; zero if
nothing does. -/
def count (value : Json) : Except Fault Int :=
  match value with
  | .int n => .ok n
  | .bool b => .ok (if b then 1 else 0)
  | .float (.infinite _) => .error .infiniteCount
  | .float x => .ok (x.truncate.getD 0)
  | .str s => .ok ((Text.integer? s.text.toList).getD 0)
  | _ => .ok 0

/-- What a deletion of many memories is restricted to. -/
def scopeParams (everything : Bool) (category tags : Json) : Except Fault Record :=
  if everything then .ok [("deleteAll", .str "true")]
  else (tagsParam tags).map (categoryParam category ++ ·)

/-- Deletes every memory, or all that have the category or one of the
tags, and returns their number.  Without a scope nothing is sent. -/
def Site.deleteMemories (site : Site) (everything : Bool) (category tags : Json) :
    Call Int := do
  if !everything && category.isVacant && tags.isVacant then
    throw (.call ⟨"Must specify deleteAll=true, category, or tags for bulk delete", some 400, false⟩)
  let params ← Call.ofExcept (scopeParams everything category tags)
  let content ← site.call .delete "/memories" (some params) .none
  Call.ofExcept (count (Record.get content "deletedCount"))

/-- The filters that are sent with a search. -/
def searchParams (text : String) (filters : Record) : Except Fault Record :=
  (tagsParam (Record.get filters "tags")).map fun tags =>
    ([("q", .str text)] : Record) ++ categoryParam (Record.get filters "category") ++ tags

/-- Searches the memories for a text. -/
def Site.searchMemories (site : Site) (text : String) (filters : Record) :
    Call (List Json) := do
  let params ← Call.ofExcept (searchParams text filters)
  let content ← site.call .get "/search" (some params) .none
  listed content

end Daybook.Backend
