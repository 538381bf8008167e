/-
The outbox: entries kept on disk until the backend takes them.

The file holds one entry a line, oldest first, each a JSON object with the
kind of the entry and its payload, both of them any value.  In reading, a
carriage return ends a line as well; blank lines and lines that are not
JSON are skipped.
-/
import Daybook.Fault
import Daybook.Disk.Basic
import Daybook.Json.Read
import Daybook.Json.Write

namespace Daybook.Outbox

/-- Where the outbox is kept. -/
def path : Path := ⟨"", ["outbox.jsonl"]⟩

/-- Whether there is an outbox, and whether it can be written. -/
inductive Access where
  | absent
  | writable
  | failing
deriving DecidableEq

/-- An entry of the outbox. -/
def entry (kind payload : Json) : Json := .obj [("kind", kind), ("payload", payload)]

/-- The line of an entry. -/
def line (entry : Json) : String := String.ofList (entry.write ++ ['\n'])

/-- A content with text added at its end. -/
def addText (content : Option Content) (text : String) : Content :=
  match content with
  | none => .text text
  | some (.text s) => .text (s ++ text)
  | some (.raw bytes) => .raw (bytes ++ text.toUTF8)

/-- Why an entry was not added. -/
inductive Refusal where
  /-- The file cannot be written. -/
  | unwritable (e : FileError)
  /-- The entry has no text.  The file was opened for it and is there now. -/
  | unspelled (f : Fault) (disk : Disk)

/-- Adds an entry at the end of the outbox. -/
def append (access : Access) (disk : Disk) (kind payload : Json) : Except Refusal Disk :=
  let added := fun text => disk.put path (addText (disk.get? path) text)
  match access with
  | .failing => .error (.unwritable ⟨.full, path⟩)
  | _ =>
    if (entry kind payload).isWritable then .ok (added (line (entry kind payload)))
    else .error (.unspelled .tooManyDigits (added ""))

-- ============================================================ reading

/-- Line breaks of all kinds as line feeds. -/
def unifyBreaks : List Char → List Char
  | [] => []
  | '\r' :: '\n' :: cs => '\n' :: unifyBreaks cs
  | '\r' :: cs => '\n' :: unifyBreaks cs
  | c :: cs => c :: unifyBreaks cs

/-- The entries on some lines, in order. -/
def entriesOf : List (List Char) → Except Fault (List Json)
  | [] => .ok []
  | row :: rows =>
    let text := Text.trim row
    if text.isEmpty then entriesOf rows
    else
      match Json.readText text with
      | .ok value => (entriesOf rows).map (value :: ·)
      | .error .malformed => entriesOf rows
      | .error .tooManyDigits => .error .tooManyDigits

/-- The entries in a text, in order. -/
def entriesIn (text : String) : Except Fault (List Json) :=
  entriesOf (Text.lines (unifyBreaks text.toList))

/-- The entries that wait in the outbox, oldest first. -/
def pending (disk : Disk) : Except Fault (List Json) :=
  match disk.get? path with
  | none => .ok []
  | some (.text s) => entriesIn s
  | some (.raw _) => .error .undecodable

/-- Leaves just these entries in the outbox; no file if there are none. -/
def keep (disk : Disk) (entries : List Json) : Disk :=
  if entries.isEmpty then disk.remove path
  else disk.put path (.text (String.join (entries.map line)))

end Daybook.Outbox
