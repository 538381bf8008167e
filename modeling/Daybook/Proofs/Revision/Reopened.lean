/-
A revised memory, opened again.

Opening reads just what saving sends, so a working copy comes back from its
own fields if reading leaves each of its values as it is: a `Settled` copy.
Reading settles what it reads, since what stands in for a missing value
stays itself (`settled_load`), and an input puts only settled values into a
copy (`Taken.settled`); that it puts them where the kind has a field rests on
the place, which is one of the kind's own.  All other fields of the memory
are left alone.
-/
import Daybook.Proofs.Revision.Places

namespace Daybook

variable {kind : Entry.Kind} {memory : Record} {copy : Copy}

-- =============================================================== values

/-- What stands in for a missing value is not missing any more. -/
theorem Json.orElse_orElse (value other : Json) :
    (value.orElse other).orElse other = value.orElse other := by
  cases hvacant : value.isVacant with
  | true =>
      have hother : value.orElse other = other := if_pos hvacant
      rw [hother]
      exact ite_self _
  | false =>
      have hvalue : value.orElse other = value := if_neg (by rw [hvacant]; exact Bool.noConfusion)
      rw [hvalue, hvalue]

theorem Json.orElse_ofText (text : String) : (ofText text).orElse (.str "") = ofText text :=
  orElse_of_isText (.inl rfl)

/-- An element that was read is read again from its own value. -/
theorem Copy.element_toJson {value : Json} {element : Element}
    (h : Copy.element kind value = .ok element) : Copy.element kind element.toJson = .ok element := by
  cases kind with
  | table =>
      unfold Copy.element at h
      dsimp only at h
      cases hvalues : value.elements with
      | ok values =>
          rw [hvalues] at h
          cases h
          rfl
      | error f =>
          rw [hvalues] at h
          cases h
  | timeline =>
      obtain ⟨time, -, h⟩ := ok_of_bind h
      obtain ⟨description, -, h⟩ := ok_of_bind h
      cases h
      show Except.ok (Element.event ((time.orElse (.str "")).orElse (.str ""))
        ((description.orElse (.str "")).orElse (.str ""))) = _
      rw [Json.orElse_orElse, Json.orElse_orElse]
  | list | image =>
      cases h
      rfl

-- ======================================================= settled copies

namespace Copy

/-- Whether reading leaves everything in a working copy as it is. -/
inductive Settled : Entry.Kind → Copy → Prop
  | image {description : Json} {tags : List Json}
    (hdescription : description.orElse (.str "") = description) :
    Settled .image ⟨.null, description, tags, .null, [], []⟩
  | page {kind : Entry.Kind} (hkind : kind ≠ .image) {title category : Json}
    {tags columns : List Json} {elements : List Element}
    (htitle : title.orElse (.str "") = title) (hcategory : category.orElse .null = category)
    (hcolumns : kind ≠ .table → columns = [])
    (helements : ∀ element ∈ elements, Copy.element kind element.toJson = .ok element) :
    Settled kind ⟨title, .null, tags, category, columns, elements⟩

/-- What is read is settled. -/
theorem settled_load (h : load kind memory = .ok copy) : copy.Settled kind := by
  by_cases hkind : kind = .image
  · subst hkind
    obtain ⟨tags, -, h⟩ := ok_of_bind h
    cases h
    exact .image (Json.orElse_orElse _ _)
  · rw [load_structured hkind] at h
    obtain ⟨tags, -, h⟩ := ok_of_bind h
    obtain ⟨columns, hcolumns, h⟩ := ok_of_bind h
    obtain ⟨values, -, h⟩ := ok_of_bind h
    obtain ⟨elements, helements, h⟩ := ok_of_bind h
    cases h
    refine .page hkind (Json.orElse_orElse _ _) (Json.orElse_orElse _ _) (fun htable => ?_)
      (forall_of_mapM helements fun _ _ _ => element_toJson)
    rw [if_neg htable] at hcolumns
    cases hcolumns
    rfl

/-- No field is sent twice. -/
theorem nodup_payload (kind : Entry.Kind) (copy : Copy) :
    ((copy.payload kind).map Prod.fst).Nodup := by
  have hkeys : decide ((copy.payload kind).map Prod.fst).Nodup = true := by
    cases kind <;> rfl
  exact of_decide_eq_true hkeys

theorem payload_structured (hkind : kind ≠ .image) (copy : Copy) :
    copy.payload kind
      = ([("content", copy.title), ("tags", .arr copy.tags), ("category", copy.category)] : Record)
        ++ (if kind = .table then [("columns", .arr copy.columns)] else [] : Record)
        ++ ([(elementsField kind, copy.elementsJson)] : Record) := by
  cases kind with
  | image => exact absurd rfl hkind
  | _ => rfl

theorem mapM_toJson {elements : List Element}
    (h : ∀ element ∈ elements, Copy.element kind element.toJson = .ok element) :
    (elements.map Element.toJson).mapM (Copy.element kind) = .ok elements :=
  mapM_of_forall₂ (List.forall₂_map_left_iff.mpr (List.forall₂_same.mpr h))

/-- A settled copy is read back from a memory that its fields were set in. -/
theorem load_merge_payload (h : copy.Settled kind) (memory : Record) :
    load kind (memory.merge (copy.payload kind)) = .ok copy := by
  have hread : ∀ field ∈ copy.payload kind,
      (memory.merge (copy.payload kind)).get field.1 = field.2 := fun _ hmem =>
    Record.get_merge_of_mem memory (nodup_payload kind copy) hmem
  generalize memory.merge (copy.payload kind) = saved at hread ⊢
  cases h with
  | @image description tags hdescription =>
      have htags : saved.get "tags" = .arr tags := hread _ (List.mem_cons_of_mem _ List.mem_cons_self)
      have hfield : saved.get "description" = description := hread _ List.mem_cons_self
      unfold load
      dsimp only
      rw [htags, hfield, Json.elementsOrNone_arr, hdescription]
      rfl
  | @page _ hkind title category tags columns elements htitle hcategory hcolumns helements =>
      rw [payload_structured hkind] at hread
      obtain ⟨hfields, hvalues⟩ := List.forall_mem_append.mp hread
      obtain ⟨hcommon, hwidth⟩ := List.forall_mem_append.mp hfields
      obtain ⟨hcontent, hrest⟩ := List.forall_mem_cons.mp hcommon
      obtain ⟨htags, hrest⟩ := List.forall_mem_cons.mp hrest
      obtain ⟨hnamed, -⟩ := List.forall_mem_cons.mp hrest
      have hlisted : saved.get (elementsField kind) = .arr (elements.map Element.toJson) :=
        hvalues _ List.mem_cons_self
      have hcolumnsRead : (if kind = .table then (saved.get "columns").elementsOrNone else .ok [])
          = .ok columns := by
        by_cases htable : kind = .table
        · rw [if_pos htable] at hwidth
          have hfield : saved.get "columns" = .arr columns := hwidth _ List.mem_cons_self
          rw [if_pos htable, hfield, Json.elementsOrNone_arr]
        · rw [if_neg htable, hcolumns htable]
      rw [load_structured hkind, hcontent, htags, hnamed, hlisted, hcolumnsRead,
        Json.elementsOrNone_arr, Json.elementsOrNone_arr, htitle, hcategory]
      dsimp only [Except.bind]
      rw [mapM_toJson helements]

end Copy

namespace Revision

variable {revision : Revision} {text : String}

-- =============================================================== inputs

/-- Whether an entry of some kind has what a place asks for. -/
def suits (kind : Entry.Kind) : Place → Bool
  | .menu | .tags => true
  | .description => kind = .image
  | .columns => kind = .table
  | _ => kind ≠ .image

theorem suits_of_isOf {place : Place} (h : place.IsOf kind) : suits kind place = true := by
  cases h with
  | menu => rfl
  | @input item hitem =>
      have hall : ∀ item ∈ menu kind, suits kind (placeOf item.choice) = true := by
        cases kind <;> decide
      exact hall item hitem
  | @second item hitem hchoice _ =>
      have hall : ∀ item ∈ menu kind, item.choice = .selectEdit → kind ≠ .image := by
        cases kind <;> decide
      exact decide_eq_true (hall item hitem hchoice)

/-- A row that is fitted to a width is still read as it is. -/
theorem element_fitted {element : Element} (width : Nat)
    (h : Copy.element kind element.toJson = .ok element) :
    Copy.element kind (fitted width element).toJson = .ok (fitted width element) := by
  cases element with
  | row values =>
      cases kind with
      | table => rfl
      | _ => cases h
  | _ => exact h

theorem element_of_readElement {element : Element} (h : revision.readElement text = .ok element) :
    Copy.element revision.kind element.toJson = .ok element := by
  unfold readElement at h
  split at h
  · next hkind =>
      rw [hkind]
      dsimp only at h
      split at h
      · cases h
        rfl
      · cases h
  · next hkind =>
      rw [hkind]
      split at h
      · cases h
      · cases h
        show Except.ok (Element.event ((Json.ofText _).orElse (.str "")) ((Json.ofText _).orElse (.str "")))
          = _
        rw [Json.orElse_ofText, Json.orElse_ofText]
  · next htable htimeline =>
      split at h
      · cases h
      · cases h
        cases hkind : revision.kind with
        | table => exact absurd hkind htable
        | timeline => exact absurd hkind htimeline
        | _ => rfl

/-- An input keeps a copy settled, as the place that waits for it is one for
a field of the kind. -/
theorem Taken.settled (hplaced : Placed revision) (hcopy : revision.copy.Settled revision.kind)
    (h : Taken revision text copy) : copy.Settled revision.kind := by
  have hsuits := suits_of_isOf hplaced.own
  obtain ⟨kind, memory, opened, place⟩ := revision
  cases hcopy with
  | image hdescription =>
      cases h with
      | description => exact .image (Json.orElse_ofText text)
      | tags => exact .image hdescription
      | title hplace | columns hplace | added hplace | replaced hplace | deleted hplace
        | moved hplace | category hplace =>
          -- No image has what these places ask for.
          cases hplace
          cases hsuits
  | page hkind htitle hcategory hcolumns helements =>
      cases h with
      | title => exact .page hkind (Json.orElse_ofText text) hcategory hcolumns helements
      | description hplace =>
          cases hplace
          exact absurd (of_decide_eq_true hsuits) hkind
      | columns hplace =>
          cases hplace
          refine .page hkind htitle hcategory (absurd (of_decide_eq_true hsuits)) fun element hmem => ?_
          obtain ⟨old, hold, rfl⟩ := List.mem_map.mp hmem
          exact element_fitted _ (helements old hold)
      | added _ hread =>
          refine .page hkind htitle hcategory hcolumns fun element hmem => ?_
          rcases List.mem_append.mp hmem with hmem | hmem
          · exact helements element hmem
          · rw [List.mem_singleton.mp hmem]
            exact element_of_readElement hread
      | replaced _ hread =>
          refine .page hkind htitle hcategory hcolumns fun element hmem => ?_
          rcases List.mem_or_eq_of_mem_set hmem with hmem | rfl
          · exact helements element hmem
          · exact element_of_readElement hread
      | deleted =>
          exact .page hkind htitle hcategory hcolumns fun element hmem =>
            helements element (List.mem_of_mem_eraseIdx hmem)
      | moved =>
          exact .page hkind htitle hcategory hcolumns fun element hmem =>
            helements element (mem_of_mem_moved hmem)
      | tags => exact .page hkind htitle hcategory hcolumns helements
      | category _ hnamed => exact .page hkind htitle hnamed hcolumns helements

-- ================================================================= runs

/-- Whether a revision of a memory can be read back: it is of the kind that the
memory names, and its copy is settled.  The place is one of the kind's own,
which is what keeps the copy so. -/
structure Kept (memory : Record) (revision : Revision) : Prop where
  same : revision.memory = memory
  type : Record.get memory "type" = .ofText revision.kind.name
  settled : revision.copy.Settled revision.kind
  placed : Placed revision

theorem kept_of_start {turn : Turn Revision} (h : start memory = .ok turn) : Kept memory turn.state := by
  obtain ⟨kind, copy, heading, htype, hload, rfl⟩ := start_opened h
  exact ⟨rfl, htype, Copy.settled_load hload, placed_menu rfl⟩

theorem kept_of_passed {turn : Turn Revision} (hrevision : Kept memory revision)
    (h : Passed revision text turn) : Kept memory turn.state := by
  have hplaced := placed_of_passed hrevision.placed h
  cases h with
  | taken htaken =>
      have hsettled := htaken.settled hrevision.placed hrevision.settled
      exact ⟨hrevision.same, hrevision.type, hsettled, hplaced⟩
  | _ => exact ⟨hrevision.same, hrevision.type, hrevision.settled, hplaced⟩

theorem kept_of_reachable (h : Reachable memory revision) : Kept memory revision :=
  h.induct (fun _ => kept_of_start) fun _ hrevision _ _ => kept_of_passed hrevision

/-- Whether a revised memory shows what it was left with: its fields are
read as the working copy, it is opened with that copy, and every field that
saving does not send is the one of the memory before. -/
structure ShowsWhatWasLeft (memory : Record) (revision : Revision) : Prop where
  loaded : Copy.load revision.kind revision.revised = .ok revision.copy
  opened : ∃ messages, start revision.revised
    = .ok (.go ⟨revision.kind, revision.revised, revision.copy, .menu⟩ (.ok messages))
  others : ∀ key, (∀ field ∈ revision.copy.payload revision.kind, field.1 ≠ key) →
    Record.get? revision.revised key = Record.get? memory key

theorem Kept.shows (h : Kept memory revision) : ShowsWhatWasLeft memory revision := by
  have hloaded : Copy.load revision.kind revision.revised = .ok revision.copy :=
    Copy.load_merge_payload h.settled revision.memory
  have hothers : ∀ key, (∀ field ∈ revision.copy.payload revision.kind, field.1 ≠ key) →
      Record.get? revision.revised key = Record.get? memory key := fun key hkey =>
    h.same ▸ Record.get?_merge revision.memory hkey
  have htype : Record.get revision.revised "type" = .ofText revision.kind.name := by
    have hfield := hothers "type" (revision.copy.payload_ne revision.kind (by decide))
    rw [← h.type]
    exact congrArg (·.getD .null) hfield
  exact ⟨hloaded, start_of_load htype hloaded, hothers⟩

/-- A memory that is opened again shows what it was left with, wherever lines
have brought the revision of any entry that can be opened, and whatever the
next line does: it is read as just the working copy, and all of its fields
that are not edited are still those of the memory that was opened. -/
theorem reopened_as_left (h : Reachable memory revision) :
    ShowsWhatWasLeft memory revision
      ∧ ∀ line world, ShowsWhatWasLeft memory (revision.answer line world).1.state := by
  have hkept := kept_of_reachable h
  refine ⟨hkept.shows, fun line world => Kept.shows ?_⟩
  exact answer_keeps hkept (fun _ => kept_of_passed hkept) world

/-- A table that was edited, saved or not. -/
theorem reopened_as_left_guests :
    let edited := standing .table guests ⟨"Guests", [], none, ["Name"], [.row ["Cat"], .row ["Ben"]]⟩ .menu
    Reachable guests edited ∧ Copy.load .table edited.revised = .ok edited.copy
      ∧ Record.get? edited.revised "id" = some (.int 7) := by
  intro edited
  have hreachable : Reachable guests edited := by
    obtain ⟨messages, hstart⟩ := start_of_isOf (by decide) isOf_guests
    have hedits : Follows answer (standing .table guests guestPage .menu) guestLines.flatten
        (standing .table guests (Edit.applyAll guestEdits guestPage) .menu) :=
      follows_edits (by decide) allValid_guests typed_guests
    rw [applyAll_guests] at hedits
    exact (Reachable.start hstart).follows hedits
      ⟨⟨"http://api.test/api", none⟩, ⟨[], .lost, []⟩, ⟨"/home", [], []⟩, .writable⟩
  have hshows := (reopened_as_left hreachable).1
  exact ⟨hreachable, hshows.loaded, hshows.others "id" (Copy.payload_ne .table _ (by decide))⟩

end Revision
end Daybook
