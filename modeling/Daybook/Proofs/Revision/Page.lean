/-
Pages: what a table, a list or a timeline holds, as plain strings and lists.

A memory comes from outside and may be any record.  `Page.IsOf` says that
its fields are what an entry of its kind should have, and which page they
spell; nothing else is asked of the memory.  The working copy of such a
memory is the page's (`load_of_isOf`).  A copy that lists strings only is
`Readable`, as that of a page is, and can always be shown (`shownOn_ok`).
-/
import Daybook.Revision.Step
import Mathlib.Data.List.Forall2

namespace Daybook

variable {kind : Entry.Kind} {memory : Record}

-- ============================================================== values

/-- Whether a value is a text; null counts as the empty one. -/
def Json.IsText (value : Json) (text : JsonString) : Prop :=
  value = .str text ∨ value = .null ∧ text = ""

/-- Whether a value is a name, or says that there is none. -/
def Json.IsName (value : Json) (name : Option JsonString) : Prop :=
  match name with
  | some name => value = .str name ∧ name ≠ ""
  | none => value = .null ∨ value = .str ""

/-- Whether a value is a list; null counts as the empty one. -/
def Json.IsList (value : Json) (items : List Json) : Prop :=
  value = .arr items ∨ value = .null ∧ items = []

/-- A name as a value, null if there is none. -/
def Json.ofName (name : Option JsonString) : Json := name.elim .null .str

theorem Json.orElse_of_isText {value : Json} {text : JsonString} (h : value.IsText text) :
    value.orElse (.str "") = .str text := by
  obtain rfl | ⟨rfl, rfl⟩ := h
  · by_cases htext : text = ""
    · subst htext
      rfl
    · exact if_neg fun hvacant => htext (beq_iff_eq.mp hvacant)
  · rfl

theorem Json.orElse_of_isName {value : Json} {name : Option JsonString} (h : value.IsName name) :
    value.orElse .null = .ofName name := by
  cases name with
  | some name =>
      obtain ⟨rfl, hname⟩ := h
      exact if_neg fun hvacant => hname (beq_iff_eq.mp hvacant)
  | none =>
      obtain rfl | rfl := h
      · rfl
      · rfl

theorem Json.elementsOrNone_of_isList {value : Json} {items : List Json} (h : value.IsList items) :
    value.elementsOrNone = .ok items := by
  obtain rfl | ⟨rfl, rfl⟩ := h
  · exact elementsOrNone_arr items
  · rfl

/-- Texts are strings. -/
theorem Json.map_ofText (texts : List String) :
    texts.map ofText = (texts.map JsonString.whole).map str := List.map_map.symm

/-- Strings can be joined, whatever they hold. -/
theorem Json.joined_str (separator : String) (items : List JsonString) :
    joined separator (items.map .str) = .ok (separator.intercalate (items.map JsonString.text)) := by
  have hall : allStrings (items.map .str) = .ok (items.map JsonString.text) := by
    induction items with
    | nil => rfl
    | cons item items ih =>
        show (allStrings (items.map .str)).map (item.text :: ·) = _
        rw [ih]
        rfl
  unfold joined
  rw [hall]
  rfl

/-- A list is gone through element by element. -/
theorem mapM_of_forall₂ {α β : Type} {f : α → Except Fault β} {values : List α} {results : List β}
    (h : List.Forall₂ (fun value result => f value = .ok result) values results) :
    values.mapM f = .ok results := by
  induction h with
  | nil => rfl
  | cons hvalue _ ih =>
      rw [List.mapM_cons, hvalue, ih]
      rfl

-- =============================================================== pieces

/-- A row, an item or an event, as strings. -/
inductive Piece where
  | row (values : List JsonString)
  | item (text : JsonString)
  | event (time description : JsonString)
deriving DecidableEq

namespace Piece

/-- A piece as a value. -/
def toJson : Piece → Json
  | .row values => .arr (values.map .str)
  | .item text => .str text
  | .event time description => .obj [("time", .str time), ("description", .str description)]

/-- Whether a value in an entry of some kind is a piece. -/
inductive IsOf : Entry.Kind → Json → Piece → Prop
  | row (values : List JsonString) : IsOf .table (.arr (values.map .str)) (.row values)
  | item (text : JsonString) : IsOf .list (.str text) (.item text)
  | event {fields : Record} {time description : JsonString}
    (htime : (Record.get fields "time").IsText time)
    (hdescription : (Record.get fields "description").IsText description) :
    IsOf .timeline (.obj fields) (.event time description)

/-- A piece as an element of a working copy. -/
def element : Piece → Element
  | .row values => .row (values.map .str)
  | .item text => .item (.str text)
  | .event time description => .event (.str time) (.str description)

theorem toJson_element (piece : Piece) : piece.element.toJson = piece.toJson := by
  cases piece <;> rfl

theorem element_of_isOf {value : Json} {piece : Piece} (h : IsOf kind value piece) :
    Copy.element kind value = .ok piece.element := by
  cases h with
  | row => rfl
  | item => rfl
  | event htime hdescription =>
      show Except.ok (Element.event ((Record.get _ "time").orElse (.str ""))
        ((Record.get _ "description").orElse (.str ""))) = _
      rw [Json.orElse_of_isText htime, Json.orElse_of_isText hdescription]
      rfl

theorem mapM_element {values : List Json} {pieces : List Piece}
    (h : List.Forall₂ (IsOf kind) values pieces) :
    values.mapM (Copy.element kind) = .ok (pieces.map element) :=
  mapM_of_forall₂ (List.forall₂_map_right_iff.mpr (h.imp fun _ _ => element_of_isOf))

/-- A piece can be shown in one line. -/
theorem shownWith_element (separator : String) (piece : Piece) :
    ∃ text, piece.element.shownWith separator = .ok text := by
  cases piece with
  | row values => exact ⟨_, Json.joined_str " | " values⟩
  | item text => exact ⟨_, rfl⟩
  | event time description =>
      have htime : (Json.str time).orElse (.str "") = .str time := Json.orElse_of_isText (.inl rfl)
      show ∃ text, (Entry.eventText (.str time) (.str description) separator).map Json.text = .ok text
      unfold Entry.eventText
      rw [htime]
      exact ⟨_, rfl⟩

theorem numbered_element (first : Nat) (pieces : List Piece) :
    ∃ messages, Revision.numbered first (pieces.map element) = .ok messages := by
  induction pieces generalizing first with
  | nil => exact ⟨[], rfl⟩
  | cons piece pieces ih =>
      obtain ⟨text, htext⟩ := shownWith_element Entry.dash piece
      obtain ⟨messages, hmessages⟩ := ih (first + 1)
      have hshown : piece.element.shown = .ok text := htext
      unfold Revision.numbered
      rw [List.map_cons]
      dsimp only
      rw [hshown, hmessages]
      exact ⟨_, rfl⟩

end Piece

-- ================================================================ pages

/-- Whether all that a working copy lists is made of strings, so that it can
be shown. -/
structure Copy.Readable (copy : Copy) : Prop where
  tags : ∃ tags : List JsonString, copy.tags = tags.map .str
  columns : ∃ columns : List JsonString, copy.columns = columns.map .str
  pieces : ∃ pieces : List Piece, copy.elements = pieces.map Piece.element

/-- How the copy of an entry is put together, unless it is an image. -/
theorem Copy.load_structured (hkind : kind ≠ .image) (memory : Record) :
    load kind memory
      = (Record.get memory "tags").elementsOrNone.bind fun tags =>
        (if kind = .table then (Record.get memory "columns").elementsOrNone else .ok []).bind
          fun columns => (Record.get memory (elementsField kind)).elementsOrNone.bind
            fun values => (values.mapM (element kind)).bind fun elements =>
              .ok ⟨(Record.get memory "content").orElse (.str ""), .null, tags,
                (Record.get memory "category").orElse .null, columns, elements⟩ := by
  cases kind with
  | image => exact absurd rfl hkind
  | _ => rfl

/-- The fields of a memory that hold its content. -/
def Copy.contentFields : List JsonString :=
  ["content", "description", "tags", "category", "columns", "rows", "items", "events"]

/-- Saving sends no field but those of the content. -/
theorem Copy.payload_ne (kind : Entry.Kind) (copy : Copy) {key : JsonString}
    (h : key ∉ contentFields) : ∀ field ∈ copy.payload kind, field.1 ≠ key := by
  have hfields : ((copy.payload kind).map Prod.fst).all (· ∈ contentFields) = true := by
    cases kind <;> rfl
  rintro field hmem rfl
  exact h (of_decide_eq_true (List.all_eq_true.mp hfields _ (List.mem_map_of_mem hmem)))

/-- What an entry holds.  Only a table has columns. -/
structure Page where
  title : JsonString
  tags : List JsonString
  category : Option JsonString
  columns : List JsonString
  pieces : List Piece
deriving DecidableEq

namespace Page

/-- The fields of a memory that hold a page. -/
def fields (kind : Entry.Kind) (page : Page) : Record :=
  ([("content", .str page.title), ("tags", .arr (page.tags.map .str)),
    ("category", .ofName page.category)] : Record)
    ++ (if kind = .table then [("columns", .arr (page.columns.map .str))] else [] : Record)
    ++ ([(Copy.elementsField kind, .arr (page.pieces.map Piece.toJson))] : Record)

/-- Whether a memory is an entry of some kind that holds a page. -/
structure IsOf (kind : Entry.Kind) (memory : Record) (page : Page) : Prop where
  type : Record.get memory "type" = .ofText kind.name
  title : (Record.get memory "content").IsText page.title
  tags : (Record.get memory "tags").IsList (page.tags.map .str)
  category : (Record.get memory "category").IsName page.category
  columns : if kind = .table then (Record.get memory "columns").IsList (page.columns.map .str)
    else page.columns = []
  pieces : ∃ values, (Record.get memory (Copy.elementsField kind)).IsList values
    ∧ List.Forall₂ (Piece.IsOf kind) values page.pieces

/-- The working copy of a page. -/
def copy (page : Page) : Copy where
  title := .str page.title
  description := .null
  tags := page.tags.map .str
  category := .ofName page.category
  columns := page.columns.map .str
  elements := page.pieces.map Piece.element

theorem payload_copy (hkind : kind ≠ .image) (page : Page) :
    page.copy.payload kind = page.fields kind := by
  have helements : page.copy.elementsJson = .arr (page.pieces.map Piece.toJson) := by
    show Json.arr ((page.pieces.map Piece.element).map Element.toJson) = _
    rw [List.map_map]
    exact congrArg Json.arr (List.map_congr_left fun piece _ => piece.toJson_element)
  unfold fields
  rw [← helements]
  cases kind with
  | image => exact absurd rfl hkind
  | _ => rfl

theorem load_of_isOf (hkind : kind ≠ .image) {page : Page} (h : page.IsOf kind memory) :
    Copy.load kind memory = .ok page.copy := by
  obtain ⟨values, hvalues, hpieces⟩ := h.pieces
  have hcolumns : (if kind = .table then (Record.get memory "columns").elementsOrNone else .ok [])
      = .ok (page.columns.map .str) := by
    have hfield := h.columns
    by_cases htable : kind = .table
    · rw [if_pos htable] at hfield ⊢
      exact Json.elementsOrNone_of_isList hfield
    · rw [if_neg htable] at hfield ⊢
      rw [hfield]
      rfl
  rw [Copy.load_structured hkind, Json.elementsOrNone_of_isList h.tags, hcolumns, Json.elementsOrNone_of_isList hvalues,
    Json.orElse_of_isText h.title, Json.orElse_of_isName h.category]
  dsimp only [Except.bind]
  rw [Piece.mapM_element hpieces]
  rfl

theorem readable_copy (page : Page) : page.copy.Readable := ⟨⟨_, rfl⟩, ⟨_, rfl⟩, ⟨_, rfl⟩⟩

end Page

-- ========================================================== what is shown

namespace Revision

variable {revision : Revision}

theorem tagsText_ok (h : revision.copy.Readable) :
    ∃ text, Entry.tagsText revision.copy.tags = .ok text := by
  obtain ⟨tags, htags⟩ := h.tags
  unfold Entry.tagsText
  rw [htags, Json.joined_str]
  exact ⟨_, rfl⟩

theorem columnsText_ok (h : revision.copy.Readable) :
    ∃ text, revision.columnsText = .ok text := by
  obtain ⟨columns, hcolumns⟩ := h.columns
  unfold columnsText
  rw [hcolumns]
  exact ⟨_, Json.joined_str " | " columns⟩

theorem numbered_ok (h : revision.copy.Readable) :
    ∃ messages, numbered 1 revision.copy.elements = .ok messages := by
  obtain ⟨pieces, hpieces⟩ := h.pieces
  rw [hpieces]
  exact Piece.numbered_element 1 pieces

theorem listing_ok (h : revision.copy.Readable) (question : String) :
    ∃ messages, revision.listing question = .ok messages := by
  obtain ⟨lines, hlines⟩ := numbered_ok h
  unfold listing
  rw [hlines]
  exact ⟨_, rfl⟩

theorem addPrompt_ok (h : revision.copy.Readable) :
    ∃ messages, revision.addPrompt = .ok messages := by
  obtain ⟨text, htext⟩ := columnsText_ok h
  unfold addPrompt
  rw [htext]
  split
  · exact ⟨_, rfl⟩
  · exact ⟨_, rfl⟩
  · exact ⟨_, rfl⟩

theorem editPrompt_ok (revision : Revision) (index : Nat) (piece : Piece) :
    ∃ messages, revision.editPrompt index piece.element = .ok messages := by
  obtain ⟨text, htext⟩ := Piece.shownWith_element "-" piece
  unfold editPrompt
  rw [htext]
  dsimp only [bind, Except.bind]
  split
  · exact ⟨_, rfl⟩
  · exact ⟨_, rfl⟩
  · exact ⟨_, rfl⟩

theorem preview_ok (h : revision.copy.Readable) :
    ∃ messages, revision.preview = .ok messages := by
  obtain ⟨tags, htags⟩ := tagsText_ok h
  obtain ⟨columns, hcolumns⟩ := columnsText_ok h
  obtain ⟨lines, hlines⟩ := numbered_ok h
  unfold preview
  dsimp only
  rw [htags, hcolumns, hlines]
  split
  · exact ⟨_, rfl⟩
  · split
    · split
      · exact ⟨_, rfl⟩
      · exact ⟨_, rfl⟩
    · split
      · exact ⟨_, rfl⟩
      · exact ⟨_, rfl⟩

/-- Whatever a choice shows of a copy that can be read can be shown. -/
theorem shownOn_ok (h : revision.copy.Readable) (choice : Choice) :
    ∃ messages, revision.shownOn choice = .ok messages := by
  unfold shownOn
  cases choice with
  | columns =>
      obtain ⟨text, htext⟩ := columnsText_ok h
      dsimp only
      rw [htext]
      exact ⟨_, rfl⟩
  | tags =>
      obtain ⟨text, htext⟩ := tagsText_ok h
      dsimp only
      rw [htext]
      exact ⟨_, rfl⟩
  | view =>
      obtain ⟨messages, hmessages⟩ := preview_ok h
      dsimp only
      rw [hmessages]
      exact ⟨_, rfl⟩
  | add => exact addPrompt_ok h
  | selectEdit => exact listing_ok h _
  | selectDelete => exact listing_ok h _
  | reorder => exact listing_ok h _
  | _ => exact ⟨_, rfl⟩

end Revision
end Daybook
