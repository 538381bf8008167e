/-
Revising an entry is editing its lists.

Each edit that is typed brings the revision from the menu to the menu, and
from the copy of a page to the copy of the edited page (`follows_edit`): the
number leads to the place of its option, whose prompt can be shown whatever
the page holds, and the input at that place leads back.  By induction over
the edits so does any series of them, and what is saved in the end is the
page with all edits applied in order (`saved_as_edited`).
-/
import Daybook.Proofs.Exchange
import Daybook.Proofs.Revision.Edit
import Daybook.Proofs.Revision.Line
import Mathlib.Data.List.InsertIdx

namespace Daybook

open Text (trim trimmed lowercase namesIn cellsIn)

variable {kind : Entry.Kind} {memory : Record} {page : Page} {line : String}

-- =========================================================== the dialogue

namespace Revision

open Backend Http
open Message (reply note)

/-- A revision at some place whose working copy is a page's. -/
def standing (kind : Entry.Kind) (memory : Record) (page : Page) (place : Place) : Revision :=
  ⟨kind, memory, page.copy, place⟩

/-- The options of a menu: their numbers and what they do. -/
def optionsOf (kind : Entry.Kind) : List (String × Choice) :=
  (menu kind).map fun item => (item.number, item.choice)

/-- The options of a list are options of a table and a timeline, too. -/
theorem mem_optionsOf (hkind : kind ≠ .image) (number : String) (choice : Choice)
    (h : (number, choice) ∈ optionsOf .list) : (number, choice) ∈ optionsOf kind := by
  have hall : ∀ option ∈ optionsOf .list, option ∈ optionsOf kind := by
    cases kind with
    | image => exact absurd rfl hkind
    | _ => decide
  exact hall (number, choice) h

/-- A number is no other word. -/
theorem number_plain {option : String × Choice} (h : option ∈ optionsOf kind) :
    IsAnswer option.1 ∧ wordOf option.1 = option.1 ∧ option.1 ≠ "save" := by
  have hall : ∀ option ∈ optionsOf kind,
      IsAnswer option.1 ∧ wordOf option.1 = option.1 ∧ option.1 ≠ "save" := by
    cases kind <;> decide +kernel
  exact hall option h

/-- A number at the menu chooses its option. -/
theorem atMenu_number {option : String × Choice} (revision : Revision)
    (h : option ∈ optionsOf revision.kind) : revision.atMenu option.1 = revision.choose option.2 := by
  have hall : ∀ kind, ∀ option ∈ optionsOf kind, ((menu kind).find? fun item =>
      option.1 = item.number ∨ option.1 ∈ item.words).map MenuItem.choice = some option.2 := by
    intro kind
    cases kind <;> decide
  obtain ⟨item, hfind, hchoice⟩ := Option.map_eq_some_iff.mp (hall revision.kind option h)
  unfold atMenu
  rw [hfind, ← hchoice]

/-- An answer that neither leaves the revision nor saves it. -/
theorem answer_take {revision : Revision} (hline : IsAnswer line)
    (hsave : revision.place = .menu → wordOf line ≠ "save") (world : World) :
    revision.answer line world = (revision.take (trimmed line), world) := by
  have hnot : ¬lowercase (trimmed line) ∈ cancelWords := hline.2
  unfold answer
  dsimp only
  rw [if_neg hnot, if_neg fun ⟨hmenu, hword⟩ => hsave hmenu hword]

/-- A number leads to the place of its choice. -/
theorem follows_choice {number : String} {choice : Choice}
    (hoption : (number, choice) ∈ optionsOf kind)
    (hallowed : (standing kind memory page .menu).refusal? choice = none) :
    Follows answer (standing kind memory page .menu) [number]
      (standing kind memory page (placeOf choice)) := by
  obtain ⟨hline, hword, hsave⟩ := number_plain hoption
  have hreadable : (standing kind memory page (placeOf choice)).copy.Readable := page.readable_copy
  obtain ⟨messages, hshown⟩ := shownOn_ok hreadable choice
  have hchoose : (standing kind memory page .menu).choose choice
      = .go (standing kind memory page (placeOf choice)) (.ok messages) := by
    unfold choose
    rw [hallowed, ← hshown]
    rfl
  have hmenu : (standing kind memory page .menu).atMenu (wordOf number)
      = .go (standing kind memory page (placeOf choice)) (.ok messages) := by
    rw [hword, ← hchoose]
    exact atMenu_number _ hoption
  exact .one fun world => (answer_take hline (fun _ hsaved => hsave (hword.symm.trans hsaved)) world).trans
    (congrArg (·, world) hmenu)

/-- An input that is taken leads on. -/
theorem follows_input {place : Place} {next : Revision} {messages : List Message}
    (hplace : place ≠ .menu) (hline : IsAnswer line)
    (htake : (standing kind memory page place).take (trimmed line) = .go next (.ok messages)) :
    Follows answer (standing kind memory page place) [line] next :=
  .one fun world => by rw [answer_take hline fun hmenu => absurd hmenu hplace, htake]

/-- An input that an option asks for leads back to the menu. -/
theorem follows_option {number : String} {choice : Choice} {edited : Page}
    (hoption : (number, choice) ∈ optionsOf kind)
    (hallowed : (standing kind memory page .menu).refusal? choice = none)
    (hplace : placeOf choice ≠ .menu) (hline : IsAnswer line)
    (htake : ∃ message, (standing kind memory page (placeOf choice)).take (trimmed line)
      = (standing kind memory edited (placeOf choice)).back message) :
    Follows answer (standing kind memory page .menu) [number, line]
      (standing kind memory edited .menu) := by
  obtain ⟨message, htake⟩ := htake
  exact (follows_choice hoption hallowed).append (follows_input hplace hline htake)

-- ============================================================== elements

/-- A row is read if it has a cell for every column. -/
theorem readElement_row {revision : Revision} {text : String} (hkind : revision.kind = .table)
    (hwidth : (cellsIn text).length = revision.copy.columns.length) :
    revision.readElement text = .ok (.row ((cellsIn text).map .ofText)) := by
  unfold readElement
  rw [hkind]
  exact if_pos hwidth

/-- The element that a line spells is read from it. -/
theorem readElement_read (memory : Record) (place : Place) (hline : IsAnswer line)
    (hsuits : (Piece.read kind line).Suits page.columns.length) :
    (standing kind memory page place).readElement (trimmed line)
      = .ok (Piece.read kind line).element := by
  cases kind with
  | table =>
      have hwidth : (cellsIn (trimmed line)).length = (page.columns.map Json.str).length := by
        rw [List.length_map, ← hsuits, List.length_map]
      have hrow : (Piece.read .table line).element = .row ((cellsIn (trimmed line)).map .ofText) :=
        congrArg Element.row List.map_map
      rw [hrow]
      exact readElement_row rfl hwidth
  | timeline => exact if_neg hline.1
  | _ => exact if_neg hline.1

/-- A number in range picks the element at that place, counted from one. -/
theorem pick?_number (kind : Entry.Kind) (memory : Record) (place : Place) {choice : String}
    {number : Nat} (hchoice : Edit.IsNumber choice number) (hrange : Edit.InRange page number) :
    (standing kind memory page place).pick? (trimmed choice) = some (number - 1) := by
  have hlength : (standing kind memory page place).copy.elements.length = page.pieces.length :=
    List.length_map _
  have hin : 1 ≤ (number : Int) ∧ (number : Int) ≤ (page.pieces.length : Int) := by
    obtain ⟨hlow, hhigh⟩ := hrange
    omega
  unfold pick?
  rw [hchoice.2]
  dsimp only
  rw [hlength, if_pos hin, Int.toNat_natCast]

-- =============================================================== inputs

section inputs

-- Each input that is taken leads back to the menu, with some message; only
-- the number of an element to be replaced leads on to another input.

variable {revision : Revision} {text : String} {element : Element} {index : Nat}

/-- An element that can be read is added at the end. -/
theorem takeAdded_ok (hread : revision.readElement text = .ok element) :
    ∃ message, revision.takeAdded text
      = (revision.withElements (revision.copy.elements ++ [element])).back message := by
  unfold takeAdded
  rw [hread]
  exact ⟨_, rfl⟩

/-- An element that can be read takes the place of the one that is edited. -/
theorem takeEdited_ok (index : Nat) (hread : revision.readElement text = .ok element) :
    ∃ message, revision.takeEdited index text
      = (revision.withElements (revision.copy.elements.set index element)).back message := by
  unfold takeEdited
  rw [hread]
  exact ⟨_, rfl⟩

/-- The element that is picked is removed. -/
theorem takeDeleteNumber_ok (hpick : revision.pick? text = some index) :
    ∃ message, revision.takeDeleteNumber text
      = (revision.withElements (revision.copy.elements.eraseIdx index)).back message := by
  unfold takeDeleteNumber
  rw [hpick]
  exact ⟨_, rfl⟩

/-- The element that is picked is asked for next. -/
theorem takeEditNumber_ok (hpick : revision.pick? text = some index)
    (helement : revision.copy.elements[index]? = some element) :
    revision.takeEditNumber text = .go { revision with place := .edit index }
      (({ revision with place := .edit index } : Revision).editPrompt index element) := by
  unfold takeEditNumber
  rw [hpick]
  dsimp only
  rw [helement]

/-- Two positions in range move the element. -/
theorem takeMove_eq (revision : Revision) {source target : Nat} (hmove : IsMove (trim text.toList) source target)
    (hsource : 1 ≤ source ∧ source ≤ revision.copy.elements.length)
    (htarget : 1 ≤ target ∧ target ≤ revision.copy.elements.length) :
    revision.takeMove text = (revision.withElements (moved (source - 1) (target - 1) revision.copy.elements)).back
      (reply ("Moved " ++ revision.kind.singular ++ " " ++ toString source ++ " to position "
        ++ toString target ++ ".")) := by
  have hin : 1 ≤ (source : Int) ∧ (source : Int) ≤ (revision.copy.elements.length : Int)
      ∧ 1 ≤ (target : Int) ∧ (target : Int) ≤ (revision.copy.elements.length : Int) := by omega
  have hmoved : moveElement (source - 1) (target - 1) revision.copy.elements
      = moved (source - 1) (target - 1) revision.copy.elements :=
    moveElement_eq (by omega) (by omega)
  unfold takeMove
  rw [positions?_of_isMove hmove]
  dsimp only
  rw [if_pos hin, Int.toNat_natCast, Int.toNat_natCast, hmoved]
  rfl

/-- The tags become the names on the line, or none if it clears them. -/
theorem takeTags_ok (kind : Entry.Kind) (memory : Record) (page : Page) (place : Place)
    {names : List String} (h : (if lowercase text = "clear" then [] else namesIn text) = names) :
    ∃ message, (standing kind memory page place).takeTags text
      = (standing kind memory { page with tags := names.map .whole } place).back message := by
  unfold takeTags
  dsimp only
  rw [h, Json.map_ofText]
  exact ⟨_, rfl⟩

/-- The category becomes the text, or none if the text clears it. -/
theorem takeCategory_ok (revision : Revision) (htext : text ≠ "") : ∃ message, revision.takeCategory text
    = back { revision with copy := { revision.copy with
        category := if lowercase text = "clear" then .null else .str text } } message := by
  by_cases hclear : lowercase text = "clear"
  · have hcleared : decide (lowercase text = "clear" ∨ text = "") = true := decide_eq_true (.inl hclear)
    unfold takeCategory
    rw [hcleared, if_pos hclear]
    exact ⟨_, rfl⟩
  · have hkept : decide (lowercase text = "clear" ∨ text = "") = false :=
      decide_eq_false (not_or.mpr ⟨hclear, htext⟩)
    unfold takeCategory
    rw [hkept, if_neg hclear]
    exact ⟨_, rfl⟩

/-- A row is fitted like the row of an element. -/
theorem element_fit (width : Nat) (piece : Piece) :
    fitted width piece.element = (piece.fit width).element := by
  cases piece with
  | row values =>
      show Element.row ((values.map Json.str).take width
        ++ List.replicate (width - (values.map Json.str).length) (.str ""))
        = Element.row ((values.take width ++ List.replicate (width - values.length) (JsonString.whole "")).map
            Json.str)
      rw [List.map_append, List.map_take, List.map_replicate, List.length_map]
  | item text => rfl
  | event time description => rfl

/-- Fitting rows to the columns fits the page's pieces. -/
theorem map_fitted (width : Nat) (pieces : List Piece) :
    (pieces.map Piece.element).map (fitted width) = (pieces.map (Piece.fit width)).map Piece.element := by
  rw [List.map_map, List.map_map]
  exact List.map_congr_left fun piece _ => element_fit width piece

/-- New columns replace the old ones, and the rows are fitted to them. -/
theorem takeColumns_ok (kind : Entry.Kind) (memory : Record) (page : Page) (place : Place)
    {names : List String} (h : namesIn text = names) (hnames : names ≠ []) :
    ∃ message, (standing kind memory page place).takeColumns text
      = (standing kind memory ((Edit.columns names).apply page) place).back message := by
  have hcopy : ((Edit.columns names).apply page).copy = { page.copy with
      columns := names.map Json.ofText
      elements := (page.pieces.map Piece.element).map (fitted names.length) } := by
    rw [map_fitted, Json.map_ofText]
    rfl
  unfold takeColumns standing
  rw [h, hcopy]
  cases names with
  | nil => exact absurd rfl hnames
  | cons name names => exact ⟨_, rfl⟩

end inputs

-- ============================================================ each edit

/-- Changing the elements of a page's copy changes the pieces of the page. -/
theorem back_withElements {pieces : List Piece} {elements : List Element}
    (h : elements = pieces.map Piece.element) (place : Place) (message : Message) :
    ((standing kind memory page place).withElements elements).back message
      = (standing kind memory { page with pieces := pieces } place).back message := by
  rw [h]
  rfl

/-- One edit after the other, as it is typed: its number at the menu, then its
answers.  The title is changed by one answer. -/
theorem follows_title (hkind : kind ≠ .image) (hline : IsAnswer line) :
    Follows answer (standing kind memory page .menu) ["1", line]
      (standing kind memory ((Edit.title (trimmed line)).apply page) .menu) :=
  follows_option (mem_optionsOf hkind "1" .title (by decide)) rfl Place.noConfusion hline ⟨_, rfl⟩

theorem follows_add (hkind : kind ≠ .image) (hline : IsAnswer line)
    (hvalid : (Edit.add (.read kind line)).Valid kind page) :
    Follows answer (standing kind memory page .menu) ["2", line]
      (standing kind memory ((Edit.add (.read kind line)).apply page) .menu) := by
  obtain ⟨hcolumns, hsuits⟩ := hvalid
  have hallowed : (standing kind memory page .menu).refusal? .add = none := by
    refine if_neg fun ⟨htable, hnone⟩ => hcolumns htable ?_
    exact List.map_eq_nil_iff.mp (List.isEmpty_iff.mp hnone)
  have hadded : (page.pieces ++ [Piece.read kind line]).map Piece.element
      = page.pieces.map Piece.element ++ [(Piece.read kind line).element] := List.map_append
  obtain ⟨message, htake⟩ := takeAdded_ok (readElement_read memory .add hline hsuits)
  exact follows_option (mem_optionsOf hkind "2" .add (by decide)) hallowed Place.noConfusion hline
    ⟨message, htake.trans (back_withElements hadded.symm .add message)⟩

/-- A page with an element in range has elements. -/
theorem pieces_ne_nil {number : Nat} (h : Edit.InRange page number) : page.pieces ≠ [] := by
  intro hnone
  have hlength := Nat.le_trans h.1 h.2
  rw [hnone] at hlength
  exact Nat.not_succ_le_zero 0 hlength

/-- Pieces can be replaced and deleted if there are any. -/
theorem isEmpty_elements (h : page.pieces ≠ []) : ¬page.copy.elements.isEmpty = true := fun hnone =>
  h (List.map_eq_nil_iff.mp (List.isEmpty_iff.mp hnone))

/-- Replacing takes two answers: which element, and what for it. -/
theorem follows_replace {choice : String} {number : Nat} (hkind : kind ≠ .image)
    (hchoice : Edit.IsNumber choice number) (hline : IsAnswer line)
    (hvalid : (Edit.replace number (.read kind line)).Valid kind page) :
    Follows answer (standing kind memory page .menu) ["3", choice, line]
      (standing kind memory ((Edit.replace number (.read kind line)).apply page) .menu) := by
  obtain ⟨hrange, hsuits⟩ := hvalid
  have hindex : number - 1 < page.pieces.length := by
    obtain ⟨hlow, hhigh⟩ := hrange
    omega
  have hallowed : (standing kind memory page .menu).refusal? .selectEdit = none :=
    if_neg (isEmpty_elements (pieces_ne_nil hrange))
  have helement : (standing kind memory page .selectEdit).copy.elements[number - 1]?
      = some page.pieces[number - 1].element := by
    show (page.pieces.map Piece.element)[number - 1]? = _
    rw [List.getElem?_map, List.getElem?_eq_getElem hindex]
    rfl
  obtain ⟨asked, hasked⟩ := editPrompt_ok (standing kind memory page (.edit (number - 1)))
    (number - 1) page.pieces[number - 1]
  have hpicked : (standing kind memory page .selectEdit).take (trimmed choice)
      = .go (standing kind memory page (.edit (number - 1))) (.ok asked) := by
    have htake : (standing kind memory page .selectEdit).take (trimmed choice)
        = (standing kind memory page .selectEdit).takeEditNumber (trimmed choice) := rfl
    rw [htake, takeEditNumber_ok (pick?_number kind memory .selectEdit hchoice hrange) helement, ← hasked]
    rfl
  have hreplaced : (page.pieces.map Piece.element).set (number - 1) (Piece.read kind line).element
      = (page.pieces.set (number - 1) (Piece.read kind line)).map Piece.element := List.map_set.symm
  obtain ⟨message, htake⟩ :=
    takeEdited_ok (number - 1) (readElement_read memory (.edit (number - 1)) hline hsuits)
  have hedit : (standing kind memory page (.edit (number - 1))).take (trimmed line) = _ :=
    htake.trans (back_withElements hreplaced _ message)
  exact ((follows_choice (mem_optionsOf hkind "3" .selectEdit (by decide)) hallowed).append
    (follows_input Place.noConfusion hchoice.1 hpicked)).append
      (follows_input Place.noConfusion hline hedit)

/-- Deleting is done once the element is picked. -/
theorem follows_delete {choice : String} {number : Nat} (hkind : kind ≠ .image)
    (hchoice : Edit.IsNumber choice number) (hrange : Edit.InRange page number) :
    Follows answer (standing kind memory page .menu) ["4", choice]
      (standing kind memory ((Edit.delete number).apply page) .menu) := by
  have hallowed : (standing kind memory page .menu).refusal? .selectDelete = none :=
    if_neg (isEmpty_elements (pieces_ne_nil hrange))
  have hdeleted : (page.pieces.map Piece.element).eraseIdx (number - 1)
      = (page.pieces.eraseIdx (number - 1)).map Piece.element := List.eraseIdx_map _ _ _
  obtain ⟨message, htake⟩ := takeDeleteNumber_ok (pick?_number kind memory .selectDelete hchoice hrange)
  have hback := htake.trans (back_withElements hdeleted .selectDelete message)
  exact follows_option (mem_optionsOf hkind "4" .selectDelete (by decide)) hallowed
    Place.noConfusion hchoice.1 ⟨message, hback⟩

/-- Moving pieces moves their elements. -/
theorem map_moved (source target : Nat) (pieces : List Piece) :
    moved source target (pieces.map Piece.element)
      = (moved source target pieces).map Piece.element := by
  unfold moved
  simp only [List.map_append, List.map_take, List.map_drop, List.getElem?_map, Option.toList_map]

theorem follows_move {source target : Nat} (hkind : kind ≠ .image) (hline : IsAnswer line)
    (hmove : IsMove (trimmed line).toList source target)
    (hvalid : (Edit.move source target).Valid kind page) :
    Follows answer (standing kind memory page .menu) ["5", line]
      (standing kind memory ((Edit.move source target).apply page) .menu) := by
  obtain ⟨htwo, hsource, htarget⟩ := hvalid
  have hlength : page.copy.elements.length = page.pieces.length := List.length_map _
  have hallowed : (standing kind memory page .menu).refusal? .reorder = none := by
    refine if_neg ?_
    show ¬page.copy.elements.length < 2
    omega
  have htyped : IsMove (trim (trimmed line).toList) source target := by
    rwa [Text.toList_trimmed, Text.trim_trim, ← Text.toList_trimmed]
  have htake := takeMove_eq (standing kind memory page .reorder) htyped (hlength ▸ hsource) (hlength ▸ htarget)
  exact follows_option (mem_optionsOf hkind "5" .reorder (by decide)) hallowed Place.noConfusion
    hline ⟨_, htake.trans (back_withElements (map_moved _ _ _) .reorder _)⟩

theorem follows_tags (hkind : kind ≠ .image) (hline : IsAnswer line) (hclear : wordOf line ≠ "clear") :
    Follows answer (standing kind memory page .menu) ["6", line]
      (standing kind memory ((Edit.tags (namesIn (trimmed line))).apply page) .menu) :=
  follows_option (mem_optionsOf hkind "6" .tags (by decide)) rfl Place.noConfusion hline
    (takeTags_ok kind memory page .tags (if_neg hclear))

theorem follows_clearTags (hkind : kind ≠ .image) (hline : IsAnswer line)
    (hclear : wordOf line = "clear") :
    Follows answer (standing kind memory page .menu) ["6", line]
      (standing kind memory (Edit.clearTags.apply page) .menu) :=
  follows_option (mem_optionsOf hkind "6" .tags (by decide)) rfl Place.noConfusion hline
    (takeTags_ok kind memory page .tags (if_pos hclear))

theorem follows_category (hkind : kind ≠ .image) (hline : IsAnswer line)
    (hclear : wordOf line ≠ "clear") :
    Follows answer (standing kind memory page .menu) ["7", line]
      (standing kind memory ((Edit.category (trimmed line)).apply page) .menu) := by
  obtain ⟨message, htake⟩ := takeCategory_ok (standing kind memory page .category) hline.1
  have hword : ¬lowercase (trimmed line) = "clear" := hclear
  rw [if_neg hword] at htake
  exact follows_option (mem_optionsOf hkind "7" .category (by decide)) rfl Place.noConfusion hline
    ⟨message, htake⟩

theorem follows_clearCategory (hkind : kind ≠ .image) (hline : IsAnswer line)
    (hclear : wordOf line = "clear") :
    Follows answer (standing kind memory page .menu) ["7", line]
      (standing kind memory (Edit.clearCategory.apply page) .menu) := by
  obtain ⟨message, htake⟩ := takeCategory_ok (standing kind memory page .category) hline.1
  have hword : lowercase (trimmed line) = "clear" := hclear
  rw [if_pos hword] at htake
  exact follows_option (mem_optionsOf hkind "7" .category (by decide)) rfl Place.noConfusion hline
    ⟨message, htake⟩

/-- Looking at the copy changes nothing. -/
theorem follows_view (hkind : kind ≠ .image) :
    Follows answer (standing kind memory page .menu) ["8"] (standing kind memory page .menu) :=
  follows_choice (mem_optionsOf hkind "8" .view (by decide)) rfl

/-- Only a table has columns to be changed. -/
theorem follows_columns {names : List String} (hline : IsAnswer line)
    (h : namesIn (trimmed line) = names) (hnames : names ≠ []) :
    Follows answer (standing .table memory page .menu) ["9", line]
      (standing .table memory ((Edit.columns names).apply page) .menu) := by
  have hoption : ("9", Choice.columns) ∈ optionsOf .table := by decide
  obtain ⟨message, htake⟩ := takeColumns_ok .table memory page .columns h hnames
  have hcolumns : (standing .table memory page .columns).take (trimmed line)
      = (standing .table memory page .columns).takeColumns (trimmed line) := rfl
  exact follows_option hoption rfl Place.noConfusion hline ⟨message, hcolumns.trans htake⟩

-- =========================================================== many edits

/-- The word that clears is an answer like any other. -/
theorem isAnswer_of_clear (hclear : wordOf line = "clear") : IsAnswer line := by
  refine ⟨fun hempty => ?_, ?_⟩
  · have hword : lowercase (trimmed line) = "clear" := hclear
    rw [hempty] at hword
    exact absurd hword (by decide +kernel)
  · rw [hclear]
    decide

/-- An edit leads from the menu to the menu, and from the copy of a page to
the copy of the edited page. -/
theorem follows_edit {edit : Edit} {lines : List String} (hkind : kind ≠ .image)
    (hvalid : edit.Valid kind page) (htyped : edit.Typed kind lines) :
    Follows answer (standing kind memory page .menu) lines
      (standing kind memory (edit.apply page) .menu) := by
  cases htyped with
  | title hline => exact follows_title hkind hline
  | add hline => exact follows_add hkind hline hvalid
  | replace hchoice hline => exact follows_replace hkind hchoice hline hvalid
  | delete hchoice => exact follows_delete hkind hchoice hvalid
  | move hline hmove => exact follows_move hkind hline hmove hvalid
  | tags hline hclear => exact follows_tags hkind hline hclear
  | clearTags hclear => exact follows_clearTags hkind (isAnswer_of_clear hclear) hclear
  | category hline hclear => exact follows_category hkind hline hclear
  | clearCategory hclear => exact follows_clearCategory hkind (isAnswer_of_clear hclear) hclear
  | view => exact follows_view hkind
  | columns hline =>
      obtain ⟨rfl, hnames⟩ := hvalid
      exact follows_columns hline rfl hnames

/-- Edits one after the other: each leaves the session at the menu, with the
page that the next one starts from. -/
theorem follows_edits {edits : List Edit} {lines : List (List String)} (hkind : kind ≠ .image)
    (hvalid : Edit.AllValid kind page edits) (htyped : List.Forall₂ (Edit.Typed kind) edits lines) :
    Follows answer (standing kind memory page .menu) lines.flatten
      (standing kind memory (Edit.applyAll edits page) .menu) := by
  induction htyped generalizing page with
  | nil => exact .nil _
  | cons hedit _ ih => exact (follows_edit hkind hvalid.1 hedit).append (ih hvalid.2)

-- =============================================================== saving

/-- A memory whose fields can be read is opened at the menu. -/
theorem start_of_load {copy : Copy} (htype : Record.get memory "type" = .ofText kind.name)
    (hload : Copy.load kind memory = .ok copy) :
    ∃ messages, start memory = .ok (.go ⟨kind, memory, copy, .menu⟩ (.ok messages)) := by
  unfold start
  rw [htype]
  dsimp only
  rw [Entry.Kind.ofName?_name]
  dsimp only
  rw [pure_bind, hload]
  exact ⟨_, rfl⟩

/-- A memory that the page is of is opened at the menu, with that page. -/
theorem start_of_isOf (hkind : kind ≠ .image) (hpage : page.IsOf kind memory) :
    ∃ messages, start memory = .ok (.go (standing kind memory page .menu) (.ok messages)) :=
  start_of_load hpage.type (Page.load_of_isOf hkind hpage)

theorem send_structured (revision : Revision) (hkind : revision.kind ≠ .image) (site : Site) :
    revision.send site = (do
      let _ ← site.updateMemory revision.memoryId (revision.copy.payload revision.kind)
      pure ()) := by
  unfold send
  dsimp only
  rw [if_neg fun himage => hkind himage.1]

/-- Saving makes one request, and it ends the revision if the answer is no
error. -/
theorem save_standing (hkind : kind ≠ .image) (world : World) :
    ((standing kind memory page .menu).save world).2.wire.sent
        = world.wire.sent ++ [⟨.put,
            world.site.base ++ ("/memories/" ++ (Record.get memory "id").text), world.site.token,
            none, .json (.obj (page.fields kind))⟩]
      ∧ ∀ content, decode world.site (world.wire.answer 0) = .ok content →
        ((standing kind memory page .menu).save world).1.ended = true
          ∧ ((standing kind memory page .menu).save world).1.completed = true := by
  have hsend : (standing kind memory page .menu).send world.site = (do
      let _ ← world.site.updateMemory (Record.get memory "id").text (page.fields kind)
      pure ()) := by
    rw [← Page.payload_copy hkind page]
    exact send_structured _ hkind _
  have hcall : (world.site.updateMemory (Record.get memory "id").text (page.fields kind)).on world.wire
      = _ := on_call .put _ none _ world.wire
  unfold save
  rw [World.run_eq, hsend]
  cases hdecode : decode world.site (world.wire.answer 0) with
  | ok content =>
      rw [hdecode] at hcall
      rw [on_bind_ok hcall]
      exact ⟨Wire.sent_send _ _, fun _ _ => ⟨rfl, rfl⟩⟩
  | error e =>
      rw [hdecode] at hcall
      rw [on_bind_error hcall]
      exact ⟨Wire.sent_send _ _, fun _ hok => nomatch hok⟩

/-- What is saved is the page with all edits applied in order: no line
before `save` is sent anywhere, `save` makes one request with the fields of
that page, and without an error in its answer the revision is completed.
A rectangular table stays one. -/
theorem saved_as_edited {edits : List Edit} {lines : List (List String)} (hkind : kind ≠ .image)
    (hpage : page.IsOf kind memory) (hvalid : Edit.AllValid kind page edits)
    (htyped : List.Forall₂ (Edit.Typed kind) edits lines) :
    (∃ opened messages waiting, start memory = .ok (.go opened (.ok messages))
      ∧ Follows answer opened lines.flatten waiting
      ∧ ∀ world, (waiting.answer "save" world).2.wire.sent
          = world.wire.sent ++ [⟨.put,
              world.site.base ++ ("/memories/" ++ (Record.get memory "id").text), world.site.token,
              none, .json (.obj ((Edit.applyAll edits page).fields kind))⟩]
        ∧ ∀ content, decode world.site (world.wire.answer 0) = .ok content →
          (waiting.answer "save" world).1.ended = true
            ∧ (waiting.answer "save" world).1.completed = true)
      ∧ (Edit.Rectangular page → Edit.Rectangular (Edit.applyAll edits page)) := by
  obtain ⟨messages, hstart⟩ := start_of_isOf hkind hpage
  refine ⟨⟨_, messages, _, hstart, follows_edits hkind hvalid htyped, fun world => ?_⟩,
    fun hrectangular => Edit.rectangular_applyAll hrectangular hvalid⟩
  have hsave : (standing kind memory (Edit.applyAll edits page) .menu).answer "save" world
      = (standing kind memory (Edit.applyAll edits page) .menu).save world := by
    have hword : lowercase (trimmed "save") = "save" := by decide +kernel
    unfold answer
    dsimp only
    rw [hword, if_neg (by decide), if_pos ⟨rfl, rfl⟩]
  rw [hsave]
  exact save_standing hkind world

/-- A table with two rows. -/
def guests : Record := [("id", .int 7), ("type", .ofText "table"), ("content", .ofText "Guests"),
  ("tags", .strings ["party"]), ("columns", .strings ["Name", "Seat"]),
  ("rows", .arr [.strings ["Ann", "1"], .strings ["Ben", "2"]])]

/-- What the table holds. -/
def guestPage : Page where
  title := "Guests"
  tags := ["party"]
  category := none
  columns := ["Name", "Seat"]
  pieces := [.row ["Ann", "1"], .row ["Ben", "2"]]

/-- A row is added, moved to the front, the second row is deleted, the tags
are cleared and there is only one column left. -/
def guestEdits : List Edit := [.add (.read .table "Cat, 3"), .move 3 1, .delete 2, .clearTags,
  .columns (namesIn (trimmed "Name"))]

/-- The lines for these edits. -/
def guestLines : List (List String) :=
  [["2", "Cat, 3"], ["5", "3 to 1"], ["4", "2"], ["6", "Clear"], ["9", "Name"]]

theorem isOf_guests : guestPage.IsOf .table guests where
  type := rfl
  title := .inl rfl
  tags := .inl rfl
  category := .inl rfl
  columns := .inl rfl
  pieces := ⟨_, .inl rfl, .cons (.row ["Ann", "1"]) (.cons (.row ["Ben", "2"]) .nil)⟩

theorem allValid_guests : Edit.AllValid .table guestPage guestEdits := by
  have hsuits : (Piece.read .table "Cat, 3").Suits 2 := by
    unfold Piece.Suits Piece.read
    decide +kernel
  refine ⟨⟨fun _ => List.cons_ne_nil _ _, hsuits⟩, ⟨?_, ?_, ?_⟩, ?_, trivial, ⟨rfl, ?_⟩, trivial⟩
  · decide +kernel
  · exact ⟨by decide +kernel, by decide +kernel⟩
  · exact ⟨by decide +kernel, by decide +kernel⟩
  · exact ⟨by decide +kernel, by decide +kernel⟩
  · decide +kernel

theorem typed_guests : List.Forall₂ (Edit.Typed .table) guestEdits guestLines := by
  have hgap : IsGap ([' '] ++ 't' :: 'o' :: [' ']) :=
    .word (List.cons_ne_nil _ _) (List.cons_ne_nil _ _) (Text.forall_mem_of_all (by decide))
  have hsource : IsPosition ['3'] 3 := ⟨by decide +kernel, Text.forall_mem_of_all (by decide)⟩
  have htarget : IsPosition ['1'] 1 := ⟨by decide +kernel, Text.forall_mem_of_all (by decide)⟩
  have hmove : IsMove (trimmed "3 to 1").toList 3 1 :=
    ⟨['3'], _, ['1'], by decide +kernel, hsource, hgap, htarget⟩
  have hdelete : Edit.IsNumber "2" 2 := ⟨by decide +kernel, by decide +kernel⟩
  exact .cons (.add (by decide +kernel)) (.cons (.move (by decide +kernel) hmove)
    (.cons (.delete hdelete) (.cons (.clearTags (by decide +kernel))
      (.cons (.columns (by decide +kernel)) .nil))))

theorem applyAll_guests : Edit.applyAll guestEdits guestPage
    = ⟨"Guests", [], none, ["Name"], [.row ["Cat"], .row ["Ben"]]⟩ := by
  decide +kernel

theorem saved_as_edited_guests :
    guestPage.IsOf .table guests ∧ Edit.AllValid .table guestPage guestEdits
      ∧ List.Forall₂ (Edit.Typed .table) guestEdits guestLines
      ∧ ∃ opened messages waiting, start guests = .ok (.go opened (.ok messages))
        ∧ Follows answer opened guestLines.flatten waiting
        ∧ ∀ world, (waiting.answer "save" world).2.wire.sent
            = world.wire.sent ++ [⟨.put, world.site.base ++ ("/memories/" ++ "7"), world.site.token,
                none, .json (.obj ([("content", .ofText "Guests"), ("tags", .strings []),
                  ("category", .null), ("columns", .strings ["Name"]),
                  ("rows", .arr [.strings ["Cat"], .strings ["Ben"]])] : Record))⟩]
          ∧ ∀ content, decode world.site (world.wire.answer 0) = .ok content →
            (waiting.answer "save" world).1.ended = true
              ∧ (waiting.answer "save" world).1.completed = true := by
  have hsaved := (saved_as_edited (by decide) isOf_guests allValid_guests typed_guests).1
  rw [applyAll_guests] at hsaved
  exact ⟨isOf_guests, allValid_guests, typed_guests, hsaved⟩

end Revision
end Daybook
