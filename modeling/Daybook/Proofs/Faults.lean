/-
Which faults can stop a computation.

# Foreign faults

Most faults say that a value from outside has the wrong shape.  Five do
not: a form asked for a step that it does not have, a list of answers that
is no list, an entry of an unknown kind, a field that has to be there, and
a confirmation requested while another one waits.  Those would be slips of
the diary itself.

A computation is `Blameless` if none of those five can stop it.  The
property goes through `bind`, `map` and `mapM`, so it is checked along the
text of a function, and so does its counterpart `Harmless` for actions on
the backend.  What is read out of memories, shown of them and sent to the
backend is blameless whatever the memories hold.
-/
import Daybook.Proofs.Revision.Line
import Daybook.Session.Step

namespace Daybook

/-- Whether a value from outside can cause a fault. -/
def Fault.isForeign : Fault → Bool
  | .notAnArray => false
  | .missingField => false
  | .noSuchStep => false
  | .unknownKind => false
  | .alreadyWaiting _ => false
  | _ => true

/-- Whether a computation stops at foreign faults only. -/
def Blameless {α : Type} (value : Except Fault α) : Prop :=
  ∀ f, value = .error f → f.isForeign = true

variable {α β : Type}

-- ========================================================= computations

theorem blameless_ok (a : α) : Blameless (.ok a) := by
  intro f h
  cases h

theorem blameless_error {f : Fault} (h : f.isForeign = true) :
    Blameless (.error f : Except Fault α) := by
  intro f' hf
  cases hf
  exact h

/-- Blameless computations one behind the other are blameless together,
whatever the first one hands on. -/
theorem Blameless.bind {value : Except Fault α} {next : α → Except Fault β}
    (h : Blameless value) (hnext : ∀ a, Blameless (next a)) : Blameless (value >>= next) := by
  cases value with
  | ok a => exact hnext a
  | error f =>
      intro f' hf
      exact h f' (congrArg Except.error (Except.error.inj hf))

/-- What is made of a result adds no fault. -/
theorem Blameless.map {value : Except Fault α} (h : Blameless value) (g : α → β) :
    Blameless (value.map g) := by
  cases value with
  | ok a => exact blameless_ok (g a)
  | error f => exact blameless_error (h f rfl)

/-- A list is gone through without blame if each of its elements is. -/
theorem Blameless.mapM {g : α → Except Fault β} (h : ∀ a, Blameless (g a)) (items : List α) :
    Blameless (items.mapM g) := by
  induction items with
  | nil => exact blameless_ok []
  | cons item items ih =>
      rw [List.mapM_cons]
      exact (h item).bind fun _ => ih.bind fun _ => blameless_ok _

-- =============================================================== values

namespace Json

/-- A field may be asked of a value that is no object. -/
theorem blameless_field (value : Json) (key : JsonString) : Blameless (value.field key) := by
  unfold field
  split
  · exact blameless_ok _
  · exact blameless_error rfl

/-- A value may have no elements. -/
theorem blameless_elements (value : Json) : Blameless value.elements := by
  unfold elements
  split
  · exact blameless_ok _
  · exact blameless_ok _
  · exact blameless_ok _
  · exact blameless_error rfl

/-- A value that stands for nothing has no elements, and any other one is
taken for a collection. -/
theorem blameless_elementsOrNone (value : Json) : Blameless value.elementsOrNone := by
  unfold elementsOrNone
  split
  · exact blameless_ok _
  · exact blameless_elements value

/-- A collection may hold more than strings. -/
theorem blameless_allStrings (items : List Json) : Blameless (allStrings items) := by
  induction items with
  | nil => exact blameless_ok []
  | cons item items ih =>
      cases item with
      | str s => exact ih.map _
      | _ => exact blameless_error rfl

theorem blameless_joined (separator : String) (items : List Json) :
    Blameless (joined separator items) := (blameless_allStrings items).map _

end Json

namespace Entry

/-- The tags of a memory are shown if they are strings. -/
theorem blameless_tagsText (tags : List Json) : Blameless (tagsText tags) :=
  (Json.blameless_joined ", " tags).map orNone

/-- The description of an event may be any value; its time has to be a string,
if it says anything. -/
theorem blameless_eventText (time description : Json) (separator : String) :
    Blameless (eventText time description separator) := by
  unfold eventText
  dsimp only
  split
  · exact blameless_ok _
  · exact blameless_error rfl

/-- A summary asks for fields of a memory, which may be no object. -/
theorem blameless_summary (memory : Json) : Blameless (summary memory) :=
  (Json.blameless_field memory _).bind fun _ => (Json.blameless_field memory _).bind fun _ =>
    (Json.blameless_field memory _).bind fun _ => blameless_ok _

end Entry

-- ============================================================ revisions

namespace Copy

/-- An element of a structured entry may have any shape in the memory. -/
theorem blameless_element (kind : Entry.Kind) (value : Json) : Blameless (element kind value) := by
  unfold element
  split
  · exact (Json.blameless_elements value).map _
  · exact (Json.blameless_field value _).bind fun _ => (Json.blameless_field value _).bind fun _ =>
      blameless_ok _
  · exact blameless_ok _

/-- Opening a memory reads its lists, each of which may be no list. -/
theorem blameless_load (kind : Entry.Kind) (memory : Record) : Blameless (load kind memory) := by
  unfold load
  refine (Json.blameless_elementsOrNone _).bind fun tags => ?_
  split
  · exact blameless_ok _
  · have hvalues : ∀ next : List Element → Except Fault Copy,
        (∀ elements, Blameless (next elements)) → Blameless (do
        let values ← (Record.get memory (elementsField kind)).elementsOrNone
        next (← values.mapM (element kind))) := fun next hnext =>
      (Json.blameless_elementsOrNone _).bind fun values =>
        (Blameless.mapM (blameless_element kind) values).bind hnext
    dsimp only
    split
    · exact (Json.blameless_elementsOrNone _).bind fun _ => hvalues _ fun _ => blameless_ok _
    · exact (blameless_ok _).bind fun _ => hvalues _ fun _ => blameless_ok _

end Copy

/-- An element is shown as it is, as joined values, or as an event. -/
theorem Element.blameless_shownWith (separator : String) (element : Element) :
    Blameless (element.shownWith separator) := by
  cases element with
  | row values => exact Json.blameless_joined " | " values
  | item value => exact blameless_ok value.text
  | event time description => exact (Entry.blameless_eventText time description separator).map _

namespace Revision

variable (revision : Revision)

/-- Opening the revision of a memory whose type names a kind of entry is
blameless, and the revision starts with the menu. -/
theorem blameless_start {memory : Record} {kind : Entry.Kind}
    (htype : Record.get memory "type" = .ofText kind.name) :
    Blameless (start memory) ∧ ∀ turn, start memory = .ok turn → Blameless turn.reply := by
  unfold start
  rw [htype]
  dsimp only
  rw [Entry.Kind.ofName?_name]
  refine ⟨(blameless_ok kind).bind fun kind => (Copy.blameless_load kind memory).bind fun _ =>
    blameless_ok _, fun turn hturn => ?_⟩
  change (Copy.load kind memory >>= _) = _ at hturn
  cases hcopy : Copy.load kind memory with
  | error f =>
      rw [hcopy] at hturn
      cases hturn
  | ok copy =>
      rw [hcopy] at hturn
      cases hturn
      exact blameless_ok _

/-- Elements are shown one by one behind their numbers. -/
theorem blameless_numbered (first : Nat) (elements : List Element) :
    Blameless (numbered first elements) := by
  induction elements generalizing first with
  | nil => exact blameless_ok []
  | cons element elements ih =>
      exact (element.blameless_shownWith Entry.dash).bind fun _ => (ih (first + 1)).bind fun _ =>
        blameless_ok _

theorem blameless_listing (question : String) : Blameless (revision.listing question) :=
  (blameless_numbered 1 _).bind fun _ => blameless_ok _

/-- The columns are joined, so they have to be strings. -/
theorem blameless_columnsText : Blameless revision.columnsText := Json.blameless_joined " | " _

/-- A preview shows the tags, the columns and the elements of the copy. -/
theorem blameless_preview : Blameless revision.preview := by
  unfold preview
  dsimp only
  split
  · exact (Entry.blameless_tagsText _).bind fun _ => blameless_ok _
  · have htags : ∀ (elements : Except Fault (List Message))
        (shown : List Message → String → List Message), Blameless elements → Blameless (do
        let elements ← elements
        return shown elements (← Entry.tagsText revision.copy.tags)) := fun elements shown h =>
      h.bind fun _ => (Entry.blameless_tagsText _).bind fun _ => blameless_ok _
    split
    · refine (revision.blameless_columnsText.map _).bind fun columns => ?_
      split
      · exact htags _ _ (blameless_ok _)
      · exact htags _ _ ((blameless_numbered 1 _).map _)
    · refine (blameless_ok _).bind fun columns => ?_
      split
      · exact htags _ _ (blameless_ok _)
      · exact htags _ _ ((blameless_numbered 1 _).map _)

/-- The element that is to be replaced is shown before the question. -/
theorem blameless_editPrompt (index : Nat) (element : Element) :
    Blameless (revision.editPrompt index element) := by
  unfold editPrompt
  refine (element.blameless_shownWith "-").bind fun current => ?_
  split
  · exact blameless_ok _
  · exact blameless_ok _
  · exact blameless_ok _

/-- A new row is asked for by the columns that it needs. -/
theorem blameless_addPrompt : Blameless revision.addPrompt := by
  unfold addPrompt
  split
  · exact revision.blameless_columnsText.bind fun _ => blameless_ok _
  · exact blameless_ok _
  · exact blameless_ok _

/-- Each choice of the menu shows a listing, a prompt, the preview or nothing
of the copy. -/
theorem blameless_shownOn (choice : Choice) : Blameless (revision.shownOn choice) := by
  cases choice with
  | title => exact blameless_ok _
  | description => exact blameless_ok _
  | columns => exact revision.blameless_columnsText.bind fun _ => blameless_ok _
  | add => exact revision.blameless_addPrompt
  | selectEdit => exact revision.blameless_listing _
  | selectDelete => exact revision.blameless_listing _
  | reorder => exact revision.blameless_listing _
  | tags => exact (Entry.blameless_tagsText _).bind fun _ => blameless_ok _
  | category => exact blameless_ok _
  | view => exact revision.blameless_preview.bind fun _ => blameless_ok _

/-- Only what a choice shows and the element to be replaced can be at
fault. -/
theorem blameless_passed {text : String} {turn : Turn Revision} (h : Passed revision text turn) :
    Blameless turn.reply := by
  cases h with
  | stays => exact blameless_ok _
  | @chosen item => exact blameless_shownOn _ item.choice
  | @picked index element => exact blameless_editPrompt _ index element
  | taken => exact blameless_ok _

end Revision

-- ========================================================== what is shown

namespace Session

/-- A type that cannot be looked up among the kinds of entries is foreign. -/
theorem blameless_isStructured (type : Json) : Blameless (isStructured type) := by
  unfold isStructured
  split
  · exact blameless_ok _
  · exact blameless_error rfl
  · exact blameless_error rfl
  · exact blameless_ok _

/-- A memory that is not picked by its tags is asked for its category. -/
theorem blameless_isFiled (category : Option String) (memory : Json) (tagged : Bool) :
    Blameless (do
      if tagged then return true
      match category with
      | none => return false
      | some category =>
        if category = "" then return false
        match ← memory.field "category" with
        | .ofText own => return own == category
        | _ => return false) := by
  split
  · exact blameless_ok _
  · split
    · exact blameless_ok _
    · split
      · exact blameless_ok _
      · refine (Json.blameless_field memory _).bind fun own => ?_
        split
        · exact blameless_ok _
        · exact blameless_ok _

/-- A memory is picked by its tags first, which may be no collection, and then
by its category. -/
theorem blameless_isMatch (category : Option String) (tags : List String) (memory : Json) :
    Blameless (isMatch category tags memory) := by
  have hfiled := blameless_isFiled category memory
  unfold isMatch
  dsimp only
  split
  · exact (blameless_ok _).bind hfiled
  · refine (Json.blameless_field memory _).bind fun own =>
      (Json.blameless_elementsOrNone own).bind fun values => ?_
    split
    · exact blameless_error rfl
    · exact (blameless_ok _).bind hfiled

/-- Memories are dropped one by one; the first one that cannot be tested stops
it. -/
theorem blameless_dropWhere {test : Json → Except Fault Bool}
    (h : ∀ memory, Blameless (test memory)) (visible : List Json) :
    Blameless (dropWhere test visible) := by
  induction visible with
  | nil => exact blameless_ok []
  | cons memory visible ih => exact (h memory).bind fun _ => ih.bind fun _ => blameless_ok _

theorem blameless_hasId (id : String) (memory : Json) : Blameless (hasId id memory) :=
  (Json.blameless_field memory "id").map _

/-- The memories in view are asked for their ids until one of them fits. -/
theorem blameless_findVisible (id : String) (visible : List Json) :
    Blameless (findVisible id visible) := by
  induction visible with
  | nil => exact blameless_ok none
  | cons memory visible ih =>
      refine (blameless_hasId id memory).bind fun same => ?_
      split
      · exact blameless_ok _
      · exact ih

/-- A memory takes the place of the one in view with its id. -/
theorem blameless_replaceVisible (memory : Record) (visible : List Json) :
    Blameless (replaceVisible memory visible).2 := by
  induction visible with
  | nil => exact blameless_ok ()
  | cons old visible ih =>
      unfold replaceVisible
      split
      · next f hf => exact blameless_error (blameless_hasId _ old f hf)
      · exact ih

theorem blameless_isPreview (memory : Json) : Blameless (isPreview memory) :=
  (Json.blameless_field memory "preview").map _

/-- The image of a memory in view is asked for by the memory's id. -/
theorem blameless_imageOf (id : String) (visible : List Json) :
    Blameless (imageOf id visible) := by
  refine (blameless_findVisible id visible).bind fun found => ?_
  split
  · split
    · exact blameless_ok _
    · exact blameless_ok _
  · exact blameless_ok _

/-- A memory or an image is gone from view by its id or by that of its image. -/
theorem blameless_isDeleted (id : String) (memory : Json) : Blameless (isDeleted id memory) :=
  (Json.blameless_field memory _).bind fun _ => (Json.blameless_field memory _).bind fun _ =>
    blameless_ok _

end Session

-- ============================================================== backend

namespace Backend

variable {site : Site}

/-- Whether an action stops at foreign faults only. -/
abbrev Harmless (action : Call α) : Prop := Stops (·.isForeign = true) action

/-- Tags are sent as one text, a collection of strings with commas between
them. -/
theorem blameless_tagsText (tags : Json) : Blameless (tagsText tags) := by
  unfold tagsText
  split
  · exact blameless_ok _
  · exact (Json.blameless_elements _).bind fun items => Json.blameless_joined "," items

/-- Nothing is sent of tags that say nothing. -/
theorem blameless_tagsParam (tags : Json) : Blameless (tagsParam tags) := by
  unfold tagsParam
  split
  · exact blameless_ok _
  · exact ((blameless_tagsText tags).bind fun _ => blameless_ok _).map _

/-- Of the filters only the tags can be at fault. -/
theorem blameless_listParams (filters : Record) : Blameless (listParams filters) := by
  induction filters with
  | nil => exact blameless_ok []
  | cons filter filters ih =>
      obtain ⟨key, value⟩ := filter
      unfold listParams
      split
      · exact ih
      · dsimp only
        split
        · exact (blameless_tagsText value).bind fun _ => (blameless_ok _).bind fun _ =>
            ih.bind fun _ => blameless_ok _
        · exact (blameless_ok _).bind fun _ => ih.bind fun _ => blameless_ok _

/-- Of what is to be deleted only the tags can be at fault. -/
theorem blameless_scopeParams (everything : Bool) (category tags : Json) :
    Blameless (scopeParams everything category tags) := by
  unfold scopeParams
  split
  · exact blameless_ok _
  · exact (blameless_tagsParam tags).map _

/-- The backend may send anything for a count, an infinite number too. -/
theorem blameless_count (value : Json) : Blameless (count value) := by
  unfold count
  split
  · exact blameless_ok _
  · exact blameless_ok _
  · exact blameless_error rfl
  · exact blameless_ok _
  · exact blameless_ok _
  · exact blameless_ok _

/-- The backend may send anything for a list of memories. -/
theorem harmless_listed (content : Record) : Harmless (listed content) :=
  stops_ofExcept (Json.blameless_elementsOrNone _)

theorem harmless_createMemory (payload : Record) : Harmless (site.createMemory payload) :=
  (direct_createMemory payload).stops

theorem harmless_memory (id : String) : Harmless (site.memory id) := by
  refine stops_call.bind fun content => ?_
  split
  · exact stops_pure _
  · exact stops_throw_call _

/-- Listing memories can be stopped by the filters, and by an answer that is
no list. -/
theorem harmless_memories (filters : Record) : Harmless (site.memories filters) :=
  (stops_ofExcept (blameless_listParams filters)).bind fun _ => stops_call.bind harmless_listed

/-- A search is a listing with a text. -/
theorem harmless_searchMemories (text : String) (filters : Record) :
    Harmless (site.searchMemories text filters) :=
  (stops_ofExcept ((blameless_tagsParam _).map _)).bind fun _ => stops_call.bind harmless_listed

/-- A deletion of many can be stopped by its scope and by the count in the
answer. -/
theorem harmless_deleteMemories (site : Site) (everything : Bool) (category tags : Json) :
    Harmless (site.deleteMemories everything category tags) := by
  unfold Site.deleteMemories
  split
  · exact stops_throw_call_bind _ _
  · exact (stops_ofExcept (blameless_scopeParams everything category tags)).bind fun _ =>
      stops_call.bind fun content => stops_ofExcept (blameless_count _)

end Backend

/-- A deletion of one looks for the image of the memory first, among the
memories in view. -/
theorem Session.harmless_deleteEntry (site : Backend.Site) (target : Target) (id : String)
    (visible : List Json) : Backend.Harmless (deleteEntry site target id visible) := by
  have hcall : ∀ path, Backend.Harmless (site.call .delete path none .none >>= fun _ => pure ()) :=
    fun path => Backend.stops_call.bind fun _ => Backend.stops_pure _
  unfold deleteEntry
  split
  · refine (Backend.stops_ofExcept (blameless_imageOf id visible)).bind fun found => ?_
    split
    · refine Backend.Stops.bind ?_ fun _ => hcall _
      refine Backend.Stops.catch (hcall _) fun trouble htrouble => ?_
      split
      · exact Backend.stops_pure _
      · intro wire f hfault
        exact htrouble f (Except.error.inj hfault)
    · exact hcall _
  · exact hcall _

end Daybook
