/-
The rows of a table stay as wide as its header.

The header is changed by one input and the rows by five others, so what
ties them is kept by each in its own way: new columns refit every row, a
row that is typed is taken only if it has the width, and what is deleted or
moved leaves the other rows as they are (`Taken.rectangular`).  Nothing is
asked of the cells, which may hold any values; the revision may even be
met after a line that could not be answered.
-/
import Daybook.Proofs.Revision.Edits
import Daybook.Proofs.Revision.Line

namespace Daybook

open Backend Http
open Text (cellsIn)

-- ============================================================ the shapes

/-- Whether every row that a memory lists has as many values as the memory
has columns. -/
def RowsFit (memory : Record) : Prop :=
  ∀ columns rows, (Record.get memory "columns").elementsOrNone = .ok columns →
    (Record.get memory "rows").elementsOrNone = .ok rows →
    ∀ row ∈ rows, ∀ values, row.elements = .ok values → values.length = columns.length

/-- Whether the elements of a copy are rows, each as wide as there are
columns. -/
def Copy.Rectangular (copy : Copy) : Prop :=
  ∀ element ∈ copy.elements, ∃ values, element = .row values ∧ values.length = copy.columns.length

/-- Whether fields that are sent list columns and rows, each as wide as
there are columns. -/
def RowsSent (fields : Record) : Prop :=
  ∃ columns rows, Record.get fields "columns" = .arr columns ∧ Record.get fields "rows" = .arr rows
    ∧ ∀ row ∈ rows, ∃ values, row = .arr values ∧ values.length = columns.length

theorem Copy.rectangular_of_subset {copy : Copy} {elements : List Element} (hcopy : copy.Rectangular)
    (hsubset : ∀ element ∈ elements, element ∈ copy.elements) :
    Copy.Rectangular { copy with elements := elements } := fun element hmem =>
  hcopy element (hsubset element hmem)

theorem Copy.rowsSent_payload {copy : Copy} (hcopy : copy.Rectangular) :
    RowsSent (copy.payload .table) := by
  refine ⟨copy.columns, copy.elements.map Element.toJson, rfl, rfl, fun row hmem => ?_⟩
  obtain ⟨element, helement, rfl⟩ := List.mem_map.mp hmem
  obtain ⟨values, rfl, hwidth⟩ := hcopy element helement
  exact ⟨values, rfl, hwidth⟩

theorem Copy.row_of_element {width : Nat} {row : Json} {element : Element}
    (hread : Copy.element .table row = .ok element)
    (hrow : ∀ values, row.elements = .ok values → values.length = width) :
    ∃ values, element = .row values ∧ values.length = width := by
  unfold Copy.element at hread
  dsimp only at hread
  cases hvalues : row.elements with
  | ok values =>
      rw [hvalues] at hread
      cases hread
      exact ⟨values, rfl, hrow values hvalues⟩
  | error f =>
      rw [hvalues] at hread
      cases hread

/-- The rows of a memory are read one by one. -/
theorem Copy.rows_of_mapM {width : Nat} {rows : List Json} {elements : List Element}
    (hread : rows.mapM (Copy.element .table) = .ok elements)
    (hrows : ∀ row ∈ rows, ∀ values, row.elements = .ok values → values.length = width) :
    ∀ element ∈ elements, ∃ values, element = .row values ∧ values.length = width :=
  forall_of_mapM hread fun row hmem _ hrow => row_of_element hrow (hrows row hmem)

/-- The working copy of a table whose rows fit is rectangular. -/
theorem Copy.rectangular_load {memory : Record} {copy : Copy} (hmemory : RowsFit memory)
    (hload : Copy.load .table memory = .ok copy) : copy.Rectangular := by
  obtain ⟨tags, -, hload⟩ := ok_of_bind hload
  obtain ⟨columns, hcolumns, hload⟩ := ok_of_bind hload
  obtain ⟨rows, hrows, hload⟩ := ok_of_bind hload
  obtain ⟨elements, helements, hload⟩ := ok_of_bind hload
  cases hload
  exact Copy.rows_of_mapM helements (hmemory columns rows hcolumns hrows)

namespace Revision

variable {revision : Revision} {memory : Record} {text : String} {copy : Copy}

-- =============================================================== inputs

/-- A row that is fitted keeps its values as far as they go, and is filled
up with empty ones. -/
theorem fitted_row {old : Nat} (width : Nat) {values : List Json} (hold : values.length = old) :
    fitted width (.row values)
      = .row (values.take (min old width) ++ List.replicate (width - old) (.str "")) := by
  have htake : values.take width = values.take (min old width) := by
    rw [← hold, Nat.min_comm, ← List.take_take, List.take_length]
  show Element.row (values.take width ++ List.replicate (width - values.length) (.str "")) = _
  rw [htake, hold]

theorem row_of_readElement {element : Element} (hkind : revision.kind = .table)
    (h : revision.readElement text = .ok element) :
    ∃ values, element = .row values ∧ values.length = revision.copy.columns.length := by
  unfold readElement at h
  rw [hkind] at h
  dsimp only at h
  split at h
  · next hwidth =>
      cases h
      exact ⟨(cellsIn text).map .ofText, rfl, (List.length_map _).trans hwidth⟩
  · cases h

theorem Taken.rectangular (hkind : revision.kind = .table) (hcopy : revision.copy.Rectangular)
    (h : Taken revision text copy) : copy.Rectangular := by
  cases h with
  | @columns _ names _ _ =>
      intro element hmem
      obtain ⟨old, hold, rfl⟩ := List.mem_map.mp hmem
      obtain ⟨values, rfl, hwidth⟩ := hcopy old hold
      refine ⟨_, fitted_row names.length hwidth, ?_⟩
      show _ = (names.map Json.ofText).length
      rw [List.length_append, List.length_take, List.length_replicate, List.length_map, hwidth]
      omega
  | added _ hread =>
      intro element hmem
      rcases List.mem_append.mp hmem with hmem | hmem
      · exact hcopy element hmem
      · rw [List.mem_singleton.mp hmem]
        exact row_of_readElement hkind hread
  | replaced _ hread =>
      intro element hmem
      rcases List.mem_or_eq_of_mem_set hmem with hmem | rfl
      · exact hcopy element hmem
      · exact row_of_readElement hkind hread
  | deleted => exact Copy.rectangular_of_subset hcopy fun _ => List.mem_of_mem_eraseIdx
  | moved => exact Copy.rectangular_of_subset hcopy fun _ => mem_of_mem_moved
  | _ => exact hcopy

theorem rectangular_of_passed {turn : Turn Revision} (hkind : revision.kind = .table)
    (hcopy : revision.copy.Rectangular) (h : Passed revision text turn) :
    turn.state.kind = .table ∧ turn.state.copy.Rectangular := by
  cases h with
  | taken htaken => exact ⟨hkind, htaken.rectangular hkind hcopy⟩
  | _ => exact ⟨hkind, hcopy⟩

-- ================================================================== runs

theorem start_table {turn : Turn Revision} (htype : Record.get memory "type" = .ofText "table")
    (h : start memory = .ok turn) :
    ∃ copy, Copy.load .table memory = .ok copy ∧ turn.state = ⟨.table, memory, copy, .menu⟩ := by
  obtain ⟨kind, copy, heading, hname, hload, rfl⟩ := start_opened h
  rw [htype] at hname
  have htable : Entry.Kind.table.name = kind.name := JsonString.whole.inj (Json.str.inj hname)
  cases Entry.Kind.name_injective htable
  exact ⟨copy, hload, rfl⟩

theorem rectangular_of_reachable (htype : Record.get memory "type" = .ofText "table")
    (hmemory : RowsFit memory) (hreachable : Reachable memory revision) :
    revision.kind = .table ∧ revision.copy.Rectangular := by
  refine hreachable.induct (P := fun revision => revision.kind = .table ∧ revision.copy.Rectangular)
    (fun turn hstart => ?_) fun revision hrevision text turn hpassed =>
      rectangular_of_passed hrevision.1 hrevision.2 hpassed
  obtain ⟨copy, hload, hstate⟩ := start_table htype hstart
  rw [hstate]
  exact ⟨rfl, Copy.rectangular_load hmemory hload⟩

/-- Only saving makes a request, and it sends the fields of the working
copy. -/
theorem requests_of_answer (hkind : revision.kind ≠ .image) (line : String) (world : World) :
    ∀ request ∈ World.requestsSince world (revision.answer line world).2,
      request.method = .put ∧ request.body = .json (.obj (revision.copy.payload revision.kind)) := by
  have hanswered := revision.answer_answered line world
  generalize revision.answer line world = answered at hanswered ⊢
  cases hanswered with
  | saves =>
      have hsends : Sends (fun request => request.method = .put
          ∧ request.body = .json (.obj (revision.copy.payload revision.kind)))
          (revision.send world.site) := by
        rw [send_structured revision hkind]
        exact (sends_call ⟨rfl, rfl⟩).bind fun _ => sends_pure _
      have hsent := World.sent_run world hsends
      rw [← revision.world_save] at hsent
      exact hsent.all
  | _ => exact (World.Sent.refl world).all

/-- New columns that are taken. -/
theorem columns_of_answer {line : String} {world : World} (hplace : revision.place = .columns)
    (hgo : (revision.answer line world).1.ended = false)
    (hback : (revision.answer line world).1.state.place = .menu) :
    ∃ names : List String, (revision.answer line world).1.state.copy = { revision.copy with
      columns := names.map .ofText
      elements := revision.copy.elements.map (fitted names.length) } := by
  have hanswered := revision.answer_answered line world
  generalize revision.answer line world = answered at hanswered hgo hback ⊢
  cases hanswered with
  | leaves => cases hgo
  | saves hmenu => exact nomatch hplace.symm.trans hmenu
  | passes hpassed =>
      -- Of all that can be passed on, new columns alone lead from here to the menu.
      cases hpassed with
      | stays => exact nomatch hplace.symm.trans hback
      | chosen hmenu => exact nomatch hplace.symm.trans hmenu
      | picked => cases hback
      | taken htaken =>
          cases htaken with
          | @columns _ names _ _ => exact ⟨names, rfl⟩
          | title h | description h | added h | replaced h | deleted h | moved h | tags h | category h =>
              exact nomatch hplace.symm.trans h

/-- In a revision of a table whose rows have as many values as there are
columns, they always do: in the working copy, wherever lines have brought
it, and in all that is sent.  New columns that are taken keep the rows in
their number and order, and each row keeps its values as far as there are
columns; the rest is filled with empty ones. -/
theorem rows_keep_the_width (htype : Record.get memory "type" = .ofText "table")
    (hmemory : RowsFit memory) (hreachable : Reachable memory revision) :
    revision.copy.Rectangular
      ∧ ∀ line world,
        (∀ request ∈ World.requestsSince world (revision.answer line world).2,
          request.method = .put ∧ ∃ fields, request.body = .json (.obj fields) ∧ RowsSent fields)
        ∧ (revision.place = .columns → (revision.answer line world).1.ended = false →
          (revision.answer line world).1.state.place = .menu →
          let old := revision.copy
          let new := (revision.answer line world).1.state.copy
          new.elements.length = old.elements.length
            ∧ ∀ (index : Nat) (values : List Json), old.elements[index]? = some (.row values) →
              new.elements[index]? = some (.row
                (values.take (min old.columns.length new.columns.length)
                  ++ List.replicate (new.columns.length - old.columns.length) (.str "")))) := by
  obtain ⟨hkind, hcopy⟩ := rectangular_of_reachable htype hmemory hreachable
  refine ⟨hcopy, fun line world => ⟨fun request hmem => ?_, fun hplace hgo hback => ?_⟩⟩
  · have hstructured : revision.kind ≠ .image := fun himage => nomatch hkind.symm.trans himage
    obtain ⟨hput, hbody⟩ := requests_of_answer hstructured line world request hmem
    rw [hkind] at hbody
    exact ⟨hput, _, hbody, Copy.rowsSent_payload hcopy⟩
  · obtain ⟨names, hnew⟩ := columns_of_answer hplace hgo hback
    have hlength : (names.map Json.ofText).length = names.length := List.length_map _
    dsimp only
    rw [hnew]
    refine ⟨List.length_map _, fun index values hrow => ?_⟩
    obtain ⟨others, hothers, hwidth⟩ := hcopy _ (List.mem_of_getElem? hrow)
    cases hothers
    dsimp only
    rw [List.getElem?_map, hrow, hlength]
    exact congrArg some (fitted_row names.length hwidth)

theorem rows_keep_the_width_guests :
    let asking := standing .table guests guestPage .columns
    let world : World := ⟨⟨"http://api.test/api", none⟩, ⟨[], .lost, []⟩, ⟨"/home", [], []⟩, .writable⟩
    let turn := (asking.answer "Name, Seat, Diet" world).1
    Record.get guests "type" = .ofText "table" ∧ RowsFit guests ∧ Reachable guests asking
      ∧ turn.ended = false ∧ turn.state.place = .menu ∧ turn.state.copy.elements.length = 2
      ∧ turn.state.copy.elements[0]? = some (.row [.ofText "Ann", .ofText "1", .ofText ""]) := by
  intro asking world turn
  have hfit : RowsFit guests := by
    intro columns rows hcolumns hrows row hmem values hvalues
    cases hcolumns
    cases hrows
    rcases List.mem_pair.mp hmem with rfl | rfl
    · cases hvalues
      rfl
    · cases hvalues
      rfl
  have hreachable : Reachable guests asking := by
    obtain ⟨messages, hstart⟩ := start_of_isOf (by decide) isOf_guests
    have hoption : ("9", Choice.columns) ∈ optionsOf .table := by decide
    exact (Reachable.start hstart).follows (follows_choice hoption rfl) world
  have hnames : Text.namesIn (Text.trimmed "Name, Seat, Diet") = ["Name", "Seat", "Diet"] := by
    decide +kernel
  obtain ⟨message, htake⟩ := takeColumns_ok .table guests guestPage .columns hnames
    (List.cons_ne_nil _ _)
  have hturn : turn = Revision.back (standing .table guests
      ((Edit.columns ["Name", "Seat", "Diet"]).apply guestPage) .columns) message := by
    have hanswer : asking.answer "Name, Seat, Diet" world
        = (asking.take (Text.trimmed "Name, Seat, Diet"), world) :=
      answer_take (by decide +kernel) Place.noConfusion world
    exact (congrArg Prod.fst hanswer).trans htake
  have hgo : turn.ended = false := by rw [hturn]; rfl
  have hback : turn.state.place = .menu := by rw [hturn]; rfl
  have hwidth : turn.state.copy.columns.length = 3 := by rw [hturn]; rfl
  obtain ⟨hlength, hrow⟩ :=
    ((rows_keep_the_width rfl hfit hreachable).2 "Name, Seat, Diet" world).2 rfl hgo hback
  have hfirst := hrow 0 [.ofText "Ann", .ofText "1"] rfl
  have hcolumns : (asking.answer "Name, Seat, Diet" world).1.state.copy.columns.length = 3 := hwidth
  rw [hcolumns] at hfirst
  exact ⟨rfl, hfit, hreachable, hgo, hback, hlength, hfirst⟩

end Revision
end Daybook
