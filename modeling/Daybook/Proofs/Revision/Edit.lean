/-
Edits: changes of a page, told by the plain operations on lists.

An `Edit` changes the title, the tags, the category or the columns of a
page, or the list of its pieces; positions are counted from one.
`Edit.Valid` says when it can be made, and `Edit.Typed` with which lines:
the number of an option of the menu, and then what that option asks for.
Valid edits leave a table rectangular (`rectangular_applyAll`).
-/
import Daybook.Proofs.Dialogue
import Daybook.Proofs.Revision.Move
import Daybook.Proofs.Revision.Page

namespace Daybook

open Text (trimmed namesIn cellsIn integer?)

variable {kind : Entry.Kind} {page : Page}

-- =============================================================== edits

/-- A change of a page.  Positions are counted from one. -/
inductive Edit where
  | title (text : String)
  | add (piece : Piece)
  | replace (number : Nat) (piece : Piece)
  | delete (number : Nat)
  | move (source target : Nat)
  | tags (names : List String)
  | clearTags
  | category (name : String)
  | clearCategory
  | view
  | columns (names : List String)

namespace Piece

/-- A row cut or filled up to a width; items and events have none. -/
def fit (width : Nat) : Piece → Piece
  | .row values => .row (values.take width ++ List.replicate (width - values.length) (.whole ""))
  | piece => piece

/-- Whether a row has a width; items and events have none. -/
def Suits (width : Nat) : Piece → Prop
  | .row values => values.length = width
  | _ => True

/-- The piece that a line spells. -/
def read (kind : Entry.Kind) (line : String) : Piece :=
  match kind with
  | .table => .row ((cellsIn (trimmed line)).map .whole)
  | .timeline =>
    let event := Entry.Event.read (trimmed line)
    .event event.time event.description
  | _ => .item (trimmed line)

end Piece

namespace Edit

/-- The page after an edit. -/
def apply (edit : Edit) (page : Page) : Page :=
  match edit with
  | .title text => { page with title := text }
  | .add piece => { page with pieces := page.pieces ++ [piece] }
  | .replace number piece => { page with pieces := page.pieces.set (number - 1) piece }
  | .delete number => { page with pieces := page.pieces.eraseIdx (number - 1) }
  | .move source target => { page with pieces := moved (source - 1) (target - 1) page.pieces }
  | .tags names => { page with tags := names.map .whole }
  | .clearTags => { page with tags := [] }
  | .category name => { page with category := some (.whole name) }
  | .clearCategory => { page with category := none }
  | .view => page
  | .columns names =>
    { page with columns := names.map .whole, pieces := page.pieces.map (Piece.fit names.length) }

/-- The page after some edits. -/
def applyAll (edits : List Edit) (page : Page) : Page :=
  edits.foldl (fun page edit => edit.apply page) page

/-- Whether a number counts one of the pieces of a page. -/
def InRange (page : Page) (number : Nat) : Prop := 1 ≤ number ∧ number ≤ page.pieces.length

/-- Whether an edit can be made on a page. -/
def Valid (kind : Entry.Kind) (page : Page) : Edit → Prop
  | .add piece => (kind = .table → page.columns ≠ []) ∧ piece.Suits page.columns.length
  | .replace number piece => InRange page number ∧ piece.Suits page.columns.length
  | .delete number => InRange page number
  | .move source target => 2 ≤ page.pieces.length ∧ InRange page source ∧ InRange page target
  | .columns names => kind = .table ∧ names ≠ []
  | _ => True

/-- Whether each of some edits can be made once those before it are. -/
def AllValid (kind : Entry.Kind) (page : Page) : List Edit → Prop
  | [] => True
  | edit :: edits => edit.Valid kind page ∧ AllValid kind (edit.apply page) edits

/-- Whether a line answers with a number. -/
def IsNumber (line : String) (number : Nat) : Prop :=
  IsAnswer line ∧ integer? (trimmed line).toList = some (number : Int)

/-- Whether some lines make an edit, typed at the menu. -/
inductive Typed (kind : Entry.Kind) : Edit → List String → Prop
  | title {line : String} (hline : IsAnswer line) : Typed kind (.title (trimmed line)) ["1", line]
  | add {line : String} (hline : IsAnswer line) : Typed kind (.add (.read kind line)) ["2", line]
  | replace {choice line : String} {number : Nat} (hchoice : IsNumber choice number)
    (hline : IsAnswer line) : Typed kind (.replace number (.read kind line)) ["3", choice, line]
  | delete {choice : String} {number : Nat} (hchoice : IsNumber choice number) :
    Typed kind (.delete number) ["4", choice]
  | move {line : String} {source target : Nat} (hline : IsAnswer line)
    (hmove : IsMove (trimmed line).toList source target) : Typed kind (.move source target) ["5", line]
  | tags {line : String} (hline : IsAnswer line) (hclear : wordOf line ≠ "clear") :
    Typed kind (.tags (namesIn (trimmed line))) ["6", line]
  | clearTags {line : String} (hclear : wordOf line = "clear") : Typed kind .clearTags ["6", line]
  | category {line : String} (hline : IsAnswer line) (hclear : wordOf line ≠ "clear") :
    Typed kind (.category (trimmed line)) ["7", line]
  | clearCategory {line : String} (hclear : wordOf line = "clear") :
    Typed kind .clearCategory ["7", line]
  | view : Typed kind .view ["8"]
  | columns {line : String} (hline : IsAnswer line) :
    Typed kind (.columns (namesIn (trimmed line))) ["9", line]

-- ======================================================= rectangular tables

/-- Whether all rows of a page are as wide as there are columns. -/
def Rectangular (page : Page) : Prop := ∀ piece ∈ page.pieces, piece.Suits page.columns.length

theorem suits_fit (width : Nat) (piece : Piece) : (piece.fit width).Suits width := by
  cases piece with
  | row values =>
      show (values.take width ++ List.replicate (width - values.length) _).length = width
      rw [List.length_append, List.length_take, List.length_replicate]
      omega
  | item text => trivial
  | event time description => trivial

theorem rectangular_apply {edit : Edit} (hpage : Rectangular page) (hvalid : edit.Valid kind page) :
    Rectangular (edit.apply page) := by
  cases edit with
  | add piece =>
      intro other hmem
      rcases List.mem_append.mp hmem with hmem | hmem
      · exact hpage other hmem
      · rw [List.mem_singleton.mp hmem]
        exact hvalid.2
  | replace number piece =>
      intro other hmem
      rcases List.mem_or_eq_of_mem_set hmem with hmem | rfl
      · exact hpage other hmem
      · exact hvalid.2
  | delete number => exact fun other hmem => hpage other (List.mem_of_mem_eraseIdx hmem)
  | move source target => exact fun other hmem => hpage other (mem_of_mem_moved hmem)
  | columns names =>
      intro other hmem
      obtain ⟨piece, -, rfl⟩ := List.mem_map.mp hmem
      have hwidth : ((Edit.columns names).apply page).columns.length = names.length :=
        List.length_map _
      rw [hwidth]
      exact suits_fit names.length piece
  | _ => exact hpage

theorem rectangular_applyAll {edits : List Edit} (hpage : Rectangular page)
    (hvalid : AllValid kind page edits) : Rectangular (applyAll edits page) := by
  induction edits generalizing page with
  | nil => exact hpage
  | cons edit edits ih => exact ih (rectangular_apply hpage hvalid.1) hvalid.2

end Edit

end Daybook
