/-
What one line can ask of the diary.

A line is read as exactly one instruction.  Reading never fails: a line
that fits no command is `Instruction.unknown` and carries its own text.
-/
import Daybook.Entry.Event

namespace Daybook

/-- What a deletion by id is aimed at. -/
inductive Target where
  | memory
  | picture
  | image
deriving DecidableEq

/-- The word for a target. -/
def Target.name : Target → String
  | .memory => "memory"
  | .picture => "picture"
  | .image => "image"

/-- The word for a target at the head of a sentence. -/
def Target.title : Target → String
  | .memory => "Memory"
  | .picture => "Picture"
  | .image => "Image"

/-- A change to the text of a memory, made in one line. -/
inductive Change where
  | append (text : String)
  | replace (text : String)
deriving DecidableEq

/-- What to delete: everything, all that match a tag or the category, or
one entry by id. -/
structure Deletion where
  target : Target
  id : Option String
  everything : Bool
  tags : List String
  category : Option String
deriving DecidableEq

/-- The kinds of entry that a query can name. -/
inductive QueryKind where
  | table
  | image
deriving DecidableEq

/-- The word for a kind of entry in a query. -/
def QueryKind.name : QueryKind → String
  | .table => "table"
  | .image => "image"

/-- Which memories to show; an absent filter restricts nothing. -/
structure Query where
  tags : List String
  category : Option String
  date : Option String
  search : Option String
  first : Bool
  kind : Option QueryKind
deriving DecidableEq

/-- What one line asks for. -/
inductive Instruction where
  | createMemory (content : String) (category : Option String) (tags : List String)
  | createTable (columns : List String) (rows : List (List String))
  | createList (items : List String)
  | createTimeline (events : List Entry.Event)
  | savePicture (description : Option String) (tags : List String)
  | editMemory (id : Option String) (change : Option Change)
  | delete (deletion : Deletion)
  | retrieve (query : Query)
  | help
  | clear
  | unknown (text : String)
deriving DecidableEq

end Daybook
