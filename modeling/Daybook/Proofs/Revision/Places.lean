/-
Where a revision can stand.

The name of a place is put together from an action and the word for an
element, and it is taken apart again to find the input that it waits for
(`actionOf_name`); the index of the element to be replaced is chosen in one
turn and used in a later one.  `Placed` says that a place is one of the
kind's own and that there are the elements it works on.  It is kept by
every line because whatever changes the elements leads back to the menu
(`placed_of_passed`).

That there is always an answer needs more than that: what is shown must be
made of strings.  An entry that is `WellTyped` is opened with a readable
copy, and every input that is taken keeps the copy readable
(`Taken.readable`).
-/
import Daybook.Proofs.Revision.Edits
import Daybook.Proofs.Revision.Line

namespace Daybook

open Text (cellsIn)

-- ============================================================ the memory

/-- Whether a memory is an entry of some kind, with fields of the types that
an entry of the kind should have. -/
inductive Entry.WellTyped (memory : Record) : Entry.Kind → Prop
  | page {kind : Entry.Kind} {page : Page} (hkind : kind ≠ .image) (hpage : page.IsOf kind memory) :
    WellTyped memory kind
  | image (htype : Record.get memory "type" = .ofText Entry.Kind.image.name)
    {description : JsonString} {tags : List JsonString}
    (hdescription : (Record.get memory "description").IsText description)
    (htags : (Record.get memory "tags").IsList (tags.map .str)) : WellTyped memory .image

-- ============================================================= the names

/-- What a place waits for, whichever element it is about. -/
def Place.action : Place → String
  | .menu => "menu"
  | .title => "title"
  | .description => "description"
  | .columns => "columns"
  | .add => "add"
  | .selectEdit => "select_edit"
  | .edit _ => "edit"
  | .selectDelete => "select_delete"
  | .reorder => "reorder"
  | .tags => "tags"
  | .category => "category"

/-- What is left of the name of a place without the word for an element
behind it. -/
def actionOf (kind : Entry.Kind) (name : String) : String :=
  let word := '_' :: kind.singular.toList
  if kind ≠ .image ∧ word <:+ name.toList then
    String.ofList (name.toList.take (name.toList.length - word.length))
  else name

/-- The names of the places of a kind: the menu, and the inputs that its
options ask for. -/
def placeNames (kind : Entry.Kind) : List String :=
  Place.menu.name kind :: (menu kind).flatMap fun item =>
    match item.choice with
    | .view => []
    | .selectEdit => [Place.selectEdit.name kind, (Place.edit 0).name kind]
    | choice => [(Revision.placeOf choice).name kind]

example : placeNames .image = ["menu", "description", "tags"] := by decide

/-- Whether a place is one of a kind's own: the menu, an input that an
option asks for, or the second input of the option that replaces an
element. -/
inductive Place.IsOf (kind : Entry.Kind) : Place → Prop
  | menu : IsOf kind .menu
  | input {item : MenuItem} (hitem : item ∈ Daybook.menu kind) :
    IsOf kind (Revision.placeOf item.choice)
  | second {item : MenuItem} (hitem : item ∈ Daybook.menu kind) (hchoice : item.choice = .selectEdit)
    (index : Nat) : IsOf kind (.edit index)

variable {kind : Entry.Kind} {place : Place}

theorem name_mem_placeNames (h : place.IsOf kind) : place.name kind ∈ placeNames kind := by
  cases h with
  | menu => exact List.mem_cons_self
  | @input item hitem =>
      have hall : ∀ item ∈ menu kind, (Revision.placeOf item.choice).name kind ∈ placeNames kind := by
        cases kind <;> decide
      exact hall item hitem
  | @second item hitem hchoice index =>
      have hall : ∀ item ∈ menu kind, item.choice = .selectEdit →
          (Place.edit 0).name kind ∈ placeNames kind := by
        cases kind <;> decide
      exact hall item hitem hchoice

/-- Taking a name apart gives back what it was put together from. -/
theorem actionOf_name (h : place.IsOf kind) : actionOf kind (place.name kind) = place.action := by
  cases h with
  | menu => cases kind <;> decide +kernel
  | @input item hitem =>
      have hall : ∀ item ∈ menu kind, actionOf kind ((Revision.placeOf item.choice).name kind)
          = (Revision.placeOf item.choice).action := by
        cases kind <;> decide +kernel
      exact hall item hitem
  | @second item hitem hchoice index =>
      have hall : ∀ item ∈ menu kind, item.choice = .selectEdit →
          actionOf kind ((Place.edit 0).name kind) = (Place.edit 0).action := by
        cases kind <;> decide +kernel
      exact hall item hitem hchoice

/-- Only the places where an element is replaced have the name of one. -/
theorem index?_iff_name (kind : Entry.Kind) (place : Place) :
    place.index?.isSome ↔ place.name kind = (Place.edit 0).name kind := by
  cases place with
  | edit index => exact ⟨fun _ => rfl, fun _ => rfl⟩
  | _ => cases kind <;> decide

namespace Revision

open Backend

variable {revision : Revision} {memory : Record} {text : String} {copy : Copy}

-- ======================================================== readable copies

theorem piece_of_readElement {element : Element} (h : revision.readElement text = .ok element) :
    ∃ piece : Piece, element = piece.element := by
  unfold readElement at h
  split at h
  · dsimp only at h
    split at h
    · cases h
      exact ⟨.row ((cellsIn text).map .whole), congrArg Element.row (Json.map_ofText _)⟩
    · cases h
  · split at h
    · cases h
    · cases h
      exact ⟨.event _ _, rfl⟩
  · split at h
    · cases h
    · cases h
      exact ⟨.item _, rfl⟩

theorem Taken.readable (hcopy : revision.copy.Readable) (h : Taken revision text copy) :
    copy.Readable := by
  obtain ⟨pieces, hpieces⟩ := hcopy.pieces
  cases h with
  | @columns _ names _ _ =>
      refine ⟨hcopy.tags, ⟨_, Json.map_ofText names⟩, pieces.map (Piece.fit names.length), ?_⟩
      show revision.copy.elements.map (fitted names.length) = _
      rw [hpieces, map_fitted]
  | added _ hread =>
      obtain ⟨piece, rfl⟩ := piece_of_readElement hread
      refine ⟨hcopy.tags, hcopy.columns, pieces ++ [piece], ?_⟩
      rw [hpieces, List.map_append]
      rfl
  | @replaced index _ _ hread =>
      obtain ⟨piece, rfl⟩ := piece_of_readElement hread
      refine ⟨hcopy.tags, hcopy.columns, pieces.set index piece, ?_⟩
      rw [hpieces, List.map_set]
  | @deleted _ index _ =>
      refine ⟨hcopy.tags, hcopy.columns, pieces.eraseIdx index, ?_⟩
      rw [hpieces, List.eraseIdx_map]
  | @moved _ source target _ _ =>
      refine ⟨hcopy.tags, hcopy.columns, Daybook.moved source target pieces, ?_⟩
      rw [hpieces, map_moved]
  | tags _ names => exact ⟨⟨_, Json.map_ofText names⟩, hcopy.columns, hcopy.pieces⟩
  | _ => exact ⟨hcopy.tags, hcopy.columns, hcopy.pieces⟩

-- ================================================================ places

/-- Whether a revision stands where it may: at a place of its kind, with the
elements that the place works on. -/
structure Placed (revision : Revision) : Prop where
  own : revision.place.IsOf revision.kind
  edit : ∀ index, revision.place = .edit index → index < revision.copy.elements.length
  select : revision.place = .selectEdit ∨ revision.place = .selectDelete →
    revision.copy.elements ≠ []
  reorder : revision.place = .reorder → 2 ≤ revision.copy.elements.length

theorem placed_menu (hplace : revision.place = .menu) : Placed revision where
  own := hplace ▸ .menu
  edit _ h := nomatch hplace.symm.trans h
  select h := h.elim (fun h => nomatch hplace.symm.trans h) fun h => nomatch hplace.symm.trans h
  reorder h := nomatch hplace.symm.trans h

/-- A choice that is not refused has the elements it needs. -/
theorem placed_choice {item : MenuItem} (hitem : item ∈ menu revision.kind)
    (hallowed : revision.refusal? item.choice = none) :
    Placed { revision with place := placeOf item.choice } where
  own := .input hitem
  edit index hplace := by
    cases hchoice : item.choice with
    | _ => rw [hchoice] at hplace; cases hplace
  select hplace := by
    intro hnone
    have hempty : revision.copy.elements = [] := hnone
    cases hchoice : item.choice with
    | selectEdit | selectDelete =>
        rw [hchoice] at hallowed
        unfold refusal? at hallowed
        rw [hempty] at hallowed
        cases hallowed
    | _ =>
        rw [hchoice] at hplace
        obtain hplace | hplace := hplace
        · cases hplace
        · cases hplace
  reorder hplace := by
    cases hchoice : item.choice with
    | reorder =>
        rw [hchoice] at hallowed
        unfold refusal? at hallowed
        dsimp only at hallowed
        split at hallowed
        · cases hallowed
        · next henough => exact Nat.not_lt.mp henough
    | _ => rw [hchoice] at hplace; cases hplace

theorem placed_edit {index : Nat} {element : Element} (hrevision : Placed revision)
    (hplace : revision.place = .selectEdit) (helement : revision.copy.elements[index]? = some element) :
    Placed { revision with place := .edit index } where
  own := by
    have hown := hrevision.own
    rw [hplace] at hown
    generalize hpicked : Place.selectEdit = picked at hown
    -- Numbers are picked only where an option led that replaces an element.
    cases hown with
    | menu => cases hpicked
    | second => cases hpicked
    | @input item hitem =>
        refine .second hitem ?_ index
        cases hchoice : item.choice with
        | selectEdit => rfl
        | _ => rw [hchoice] at hpicked; cases hpicked
  edit other h := by
    cases h
    exact (List.getElem?_eq_some_iff.mp helement).1
  select h := h.elim (fun h => nomatch h) fun h => nomatch h
  reorder h := nomatch h

theorem placed_of_passed {turn : Turn Revision} (hrevision : Placed revision)
    (h : Passed revision text turn) : Placed turn.state := by
  cases h with
  | stays => exact hrevision
  | chosen _ hitem hallowed => exact placed_choice hitem hallowed
  | picked hplace helement => exact placed_edit hrevision hplace helement
  | taken => exact placed_menu rfl

-- ================================================================== runs

/-- What holds of a revision wherever it stands. -/
structure Sound (kind : Entry.Kind) (revision : Revision) : Prop where
  kind : revision.kind = kind
  readable : revision.copy.Readable
  placed : Placed revision

theorem sound_of_passed {turn : Turn Revision} (hrevision : Sound kind revision)
    (h : Passed revision text turn) : Sound kind turn.state := by
  have hplaced := placed_of_passed hrevision.placed h
  cases h with
  | taken htaken => exact ⟨hrevision.kind, htaken.readable hrevision.readable, hplaced⟩
  | _ => exact ⟨hrevision.kind, hrevision.readable, hplaced⟩

/-- Whatever is passed on is answered. -/
theorem reply_of_passed {turn : Turn Revision} (hrevision : revision.copy.Readable)
    (h : Passed revision text turn) : ∃ messages, turn.reply = .ok messages := by
  cases h with
  | stays => exact ⟨_, rfl⟩
  | @chosen item _ _ hallowed =>
      have hentered : ({ revision with place := placeOf item.choice } : Revision).copy.Readable :=
        hrevision
      exact shownOn_ok hentered item.choice
  | picked hplace helement =>
      obtain ⟨pieces, hpieces⟩ := hrevision.pieces
      rw [hpieces, List.getElem?_map] at helement
      obtain ⟨piece, -, rfl⟩ := Option.map_eq_some_iff.mp helement
      exact editPrompt_ok _ _ piece
  | taken htaken message => exact ⟨_, rfl⟩

theorem reply_of_answer (hrevision : revision.copy.Readable) (line : String) (world : World) :
    ∃ messages, (revision.answer line world).1.reply = .ok messages := by
  have hanswered := revision.answer_answered line world
  generalize revision.answer line world = answered at hanswered ⊢
  cases hanswered with
  | leaves => exact ⟨_, rfl⟩
  | saves => exact (save_spec revision world).2
  | passes hpassed => exact reply_of_passed hrevision hpassed

/-- What a line leaves can be shown as before. -/
theorem readable_answer (hrevision : revision.copy.Readable) (line : String) (world : World) :
    (revision.answer line world).1.state.copy.Readable := by
  refine answer_keeps (P := fun next => next.copy.Readable) hrevision (fun turn hpassed => ?_) world
  cases hpassed with
  | taken htaken => exact htaken.readable hrevision
  | _ => exact hrevision

/-- An entry with fields of the right types can be opened. -/
theorem start_of_wellTyped (h : Entry.WellTyped memory kind) :
    ∃ copy messages, start memory = .ok (.go ⟨kind, memory, copy, .menu⟩ (.ok messages))
      ∧ copy.Readable := by
  cases h with
  | @page _ page hkind hpage =>
      obtain ⟨messages, hstart⟩ := start_of_isOf hkind hpage
      exact ⟨page.copy, messages, hstart, page.readable_copy⟩
  | @image htype description tags hdescription htags =>
      have hload : Copy.load .image memory
          = .ok ⟨.null, .str description, tags.map .str, .null, [], []⟩ := by
        unfold Copy.load
        rw [Json.elementsOrNone_of_isList htags, Json.orElse_of_isText hdescription]
        rfl
      obtain ⟨messages, hstart⟩ := start_of_load htype hload
      exact ⟨_, messages, hstart, ⟨tags, rfl⟩, ⟨[], rfl⟩, ⟨[], rfl⟩⟩

theorem sound_of_reachable (h : Entry.WellTyped memory kind) (hreachable : Reachable memory revision) :
    Sound kind revision := by
  refine hreachable.induct (fun turn hstart => ?_) fun revision hrevision text turn hpassed =>
    sound_of_passed hrevision hpassed
  obtain ⟨copy, messages, hopened, hcopy⟩ := start_of_wellTyped h
  rw [hopened] at hstart
  cases hstart
  exact ⟨rfl, hcopy, placed_menu rfl⟩

/-- A revision of an entry with fields of the right types can be opened, and
wherever lines have brought it there is an answer to any further line.  It
stands at one of its kind's own places, whose name can be taken apart again;
it holds an index just where an element is replaced, and then the index is
one of an element; and it asks for the number of an element only if there is
one, and for a move only if there are two. -/
theorem stands_safely (h : Entry.WellTyped memory kind) :
    (∃ opened messages, start memory = .ok (.go opened (.ok messages)))
      ∧ ∀ revision, Reachable memory revision →
        revision.kind = kind
          ∧ revision.place.name kind ∈ placeNames kind
          ∧ actionOf kind (revision.place.name kind) = revision.place.action
          ∧ (revision.place.index?.isSome
            ↔ revision.place.name kind = "edit_" ++ kind.singular)
          ∧ Placed revision
          ∧ ∀ line world, ∃ messages, (revision.answer line world).1.reply = .ok messages := by
  obtain ⟨copy, messages, hstart, -⟩ := start_of_wellTyped h
  refine ⟨⟨_, messages, hstart⟩, fun revision hreachable => ?_⟩
  have hsound := sound_of_reachable h hreachable
  have hown : revision.place.IsOf kind := hsound.kind ▸ hsound.placed.own
  exact ⟨hsound.kind, name_mem_placeNames hown, actionOf_name hown, index?_iff_name kind _,
    hsound.placed, reply_of_answer hsound.readable⟩

theorem stands_safely_guests :
    let asking := standing .table guests guestPage .selectEdit
    Entry.WellTyped guests .table ∧ Reachable guests asking
      ∧ asking.place.name .table ∈ ["menu", "title", "add_row", "select_edit_row", "edit_row",
        "select_delete_row", "reorder", "tags", "category", "columns"]
      ∧ Placed asking ∧ ∀ line world, ∃ messages, (asking.answer line world).1.reply = .ok messages := by
  intro asking
  have htyped : Entry.WellTyped guests .table := .page (by decide) isOf_guests
  have hreachable : Reachable guests asking := by
    obtain ⟨messages, hstart⟩ := start_of_isOf (by decide) isOf_guests
    have hoption : ("3", Choice.selectEdit) ∈ optionsOf .table := by decide
    exact (Reachable.start hstart).follows (follows_choice hoption rfl)
      ⟨⟨"http://api.test/api", none⟩, ⟨[], .lost, []⟩, ⟨"/home", [], []⟩, .writable⟩
  obtain ⟨-, hname, -, -, hplaced, hreply⟩ := (stands_safely htyped).2 asking hreachable
  exact ⟨htyped, hreachable, hname, hplaced, hreply⟩

end Revision
end Daybook
