/-
Reading a line as an instruction.

The words at the head of the trimmed line, in lower case, decide which
command it is; the clauses are then taken from the whole line.
-/
import Daybook.Instruction.Basic
import Daybook.Instruction.Clause

namespace Daybook.Instruction

open Text

/-- The strings that a list of texts spells. -/
def strings (texts : List (List Char)) : List String := texts.map String.ofList

-- ========================================================== creating

/-- Reads the content, category and tags of a memory to be created. -/
def readCreateMemory (cs : List Char) : Instruction :=
  .createMemory (String.ofList (Clause.memoryContent cs))
    ((Clause.category? cs).map String.ofList) (strings (Clause.memoryTags cs))

/-- The lines that begin with a hyphen or a bullet, without that mark. -/
def bulletLines (cs : List Char) : List (List Char) :=
  (lines cs).filterMap fun line =>
    match trim line with
    | '-' :: text => some (trim text)
    | '•' :: text => some (trim text)
    | _ => none

/-- The column names of a line `columns: a, b`, empty ones kept. -/
def columnsLine? (line : List Char) : Option (List (List Char)) :=
  let text := trim line
  if startsWith "columns:" (lowered text) then some (cells (text.drop 8)) else none

/-- Reads a table written out in the line: the last columns line counts,
and each bullet line is a row. -/
def readCreateTable (cs : List Char) : Instruction :=
  let columns := ((lines cs).filterMap columnsLine?).getLast?.getD []
  .createTable (strings columns) ((bulletLines cs).map fun row => strings (cells row))

/-- Reads a list written out in the line. -/
def readCreateList (cs : List Char) : Instruction := .createList (strings (bulletLines cs))

/-- Reads one bullet line of a timeline: a time `H:MM` or `HH:MM`, blanks
and a description, or else a description alone. -/
def readTimelineLine (line : List Char) : Entry.Event :=
  let hour := (line.take 2).takeWhile isDigit
  let found := match line.drop hour.length with
    | ':' :: a :: b :: gap :: rest =>
      if !hour.isEmpty && isDigit a && isDigit b && isBlank gap then
        some (hour ++ [':', a, b], skipBlank rest)
      else none
    | _ => none
  match found with
  | some (time, description) => ⟨String.ofList time, String.ofList description⟩
  | none => ⟨"", String.ofList line⟩

/-- Reads a timeline written out in the line. -/
def readCreateTimeline (cs : List Char) : Instruction :=
  .createTimeline ((bulletLines cs).map readTimelineLine)

/-- Reads the description and tags of a picture to be saved. -/
def readSavePicture (cs : List Char) : Instruction :=
  .savePicture ((Clause.description? cs).map String.ofList) (strings (Clause.pictureTags cs))

-- ========================================================== changing

/-- Reads a change: a line that mentions `add:` appends or changes
nothing, any other replaces. -/
def readChange (cs : List Char) : Option Change :=
  if contains "add:" cs then
    (seek Clause.addedHere cs).map fun text => .append (String.ofList text)
  else
    ((Clause.quoted? cs).or (seek Clause.lastLineHere cs)).map fun text =>
      .replace (String.ofList text)

/-- Reads the id and the change of a memory to be edited. -/
def readEditMemory (cs : List Char) : Instruction :=
  .editMemory ((Clause.id? cs).map String.ofList) (readChange cs)

/-- The first target named in a text in lower case. -/
def target? (cs : List Char) : Option Target :=
  seek (fun rest => [Target.memory, .picture, .image].find? fun t => startsWith t.name rest) cs

/-- Reads what to delete.  A number sign marks the id if it can; hashtags
are tags only where there is no id. -/
def readDeletion (cs : List Char) : Deletion :=
  let id := Clause.id? cs
  { target := (target? (lowered cs)).getD .memory
    id := id.map String.ofList
    everything := contains "delete all" (lowered cs)
    tags := strings (Clause.filterTags id.isNone cs)
    category := (Clause.category? cs).map String.ofList }

-- ========================================================= retrieving

/-- A text that says something. -/
def nonempty? (text : Option (List Char)) : Option String :=
  match text with
  | some (c :: cs) => some (String.ofList (c :: cs))
  | _ => none

/-- Reads which memories to show.  A mood stands for a category if none
is named. -/
def readQuery (cs : List Char) : Query :=
  let lower := lowered cs
  { tags := strings (Clause.filterTags true cs)
    category := ((Clause.category? cs).or (Clause.mood? cs)).map String.ofList
    date := nonempty? (Clause.date? cs)
    search := nonempty? (Clause.search? cs)
    first := contains "first memory" lower
    kind :=
      if contains "pictures" lower || contains "images" lower then some .image
      else if contains "all tables" lower then some .table
      else none }

-- ======================================================== the command

/-- The words that open a deletion. -/
def deleteWords : List String :=
  ["delete all", "delete memory", "delete memories", "delete picture", "delete image"]

/-- The words that open a query. -/
def retrieveWords : List String := ["mother,", "show", "bring up", "list", "search"]

/-- Reads a text as the instruction that its head asks for: the text
itself, trimmed and in small letters. -/
def readHeaded (head cs : List Char) : Instruction :=
  let opens := fun (words : List String) => words.any fun word => startsWith word head
  let is := fun (words : List String) => words.any fun word => head == word.toList
  if head.isEmpty then .unknown (String.ofList cs)
  else if opens ["create memory"] then readCreateMemory cs
  else if opens ["create table"] then readCreateTable cs
  else if opens ["create list"] then readCreateList cs
  else if opens ["create timeline"] then readCreateTimeline cs
  else if opens ["save picture", "save image"] then readSavePicture cs
  else if opens ["edit memory", "update memory"] then readEditMemory cs
  else if opens deleteWords then .delete (readDeletion cs)
  else if opens retrieveWords then .retrieve (readQuery cs)
  else if is ["help", "?"] then .help
  else if is ["clear", "cls"] then .clear
  else .unknown (String.ofList cs)

/-- Reads a text as an instruction. -/
def readChars (cs : List Char) : Instruction := readHeaded (lowered (trim cs)) cs

/-- Reads a line as an instruction. -/
def read (line : String) : Instruction := readChars line.toList

end Daybook.Instruction
