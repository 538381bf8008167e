/-
What every form holds: its index names a step, and each step's field has
the shape that the step leaves there.

The shapes (`FormStep.Fits`) are all that prompts, payloads and closing
messages need, so none of them meets a value that it cannot use.  An entry
built by a form is made of texts throughout, so it always has a line in
the outbox that gives it back.
-/
import Daybook.Form.Step
import Daybook.Proofs.Exchange
import Daybook.Proofs.Outbox.Pending

namespace Daybook.Json

-- ======================================================= exact values

/-- Whether a value has a text that is read back as that value. -/
structure Exact (value : Json) : Prop where
  plain : value.isPlain = true
  writable : value.isWritable = true

/-- The values that are given back exactly by their text: nothing, texts, and
lists and objects of such. -/
theorem exact_null : Exact .null := ⟨rfl, rfl⟩

theorem exact_str (s : JsonString) : Exact (.str s) := ⟨rfl, rfl⟩

theorem exact_ofOption (text : Option String) : Exact (.ofOption text) := by
  cases text with
  | none => exact exact_null
  | some s => exact exact_str s

theorem exact_arr {items : List Json} (h : ∀ item ∈ items, Exact item) : Exact (.arr items) := by
  have hall : arePlain items = true ∧ areWritable items = true := by
    induction items with
    | nil => exact ⟨rfl, rfl⟩
    | cons item items ih =>
        obtain ⟨hplain, hwritable⟩ := ih fun other hmem => h other (List.mem_cons_of_mem item hmem)
        have hitem := h item List.mem_cons_self
        unfold arePlain areWritable
        rw [hitem.plain, hitem.writable, hplain, hwritable]
        exact ⟨rfl, rfl⟩
  exact ⟨by rw [isPlain, hall.1], by rw [isWritable, hall.2]⟩

/-- An object needs names that differ, for of two fields with one name the
last is kept. -/
theorem exact_obj {fields : Record} (hkeys : (fields.map Prod.fst).Nodup)
    (h : ∀ field ∈ fields, Exact field.2) : Exact (.obj fields) := by
  have hall : fieldsPlain fields = true ∧ fieldsWritable fields = true := by
    induction fields with
    | nil => exact ⟨rfl, rfl⟩
    | cons field fields ih =>
        rw [List.map_cons, List.nodup_cons] at hkeys
        obtain ⟨hplain, hwritable⟩ :=
          ih hkeys.2 fun other hmem => h other (List.mem_cons_of_mem field hmem)
        have hvalue := h field List.mem_cons_self
        have hother : fields.all (·.1 ≠ field.1) = true := by
          rw [List.all_eq_true]
          intro other hmem
          refine decide_eq_true fun hsame => hkeys.1 ?_
          rw [← hsame]
          exact List.mem_map_of_mem hmem
        unfold fieldsPlain fieldsWritable
        rw [hvalue.plain, hvalue.writable, hplain, hwritable, hother]
        exact ⟨rfl, rfl⟩
  exact ⟨by rw [isPlain, hall.1], by rw [isWritable, hall.2]⟩

theorem exact_strings (texts : List String) : Exact (.strings texts) := by
  refine exact_arr fun item hmem => ?_
  obtain ⟨text, -, rfl⟩ := List.mem_map.mp hmem
  exact exact_str text

/-- Whichever of two values is taken, it is exact if both are. -/
theorem Exact.orElse {value other : Json} (h : Exact value) (hother : Exact other) :
    Exact (value.orElse other) := by
  unfold Json.orElse
  split
  · exact hother
  · exact h

end Daybook.Json

namespace Daybook

open Entry (Event)
open Message (note)

-- ============================================================= shapes

/-- The values that a step leaves in its field. -/
def FormStep.Fits : FormStep → Json → Prop
  | .title, value => ∃ text : String, value = .ofText text
  | .columns, value => ∃ names, value = .strings names
  | .rows, value => ∃ rows : List (List String), value = .arr (rows.map .strings)
  | .items, value => ∃ items, value = .strings items
  | .events, value => ∃ events : List Event, value = .arr (events.map Event.toJson)
  | .tags, value => ∃ tags, value = .strings tags
  | .category, value => ∃ name, value = .ofOption name
  | .description, value => ∃ text : String, value = .ofText text
  | .album, value => ∃ name, value = .ofOption name
  | .select, _ => True
  | .confirm, _ => True

/-- The shapes that a draft of some kind has: each field fits its step,
and the path of the image is a text if it is known. -/
structure Draft.Sound (kind : Entry.Kind) (draft : Draft) : Prop where
  fits : ∀ step ∈ formSteps kind, step.Fits (draft.get step.name)
  path : ∃ path, draft.get "file_path" = .ofOption path

/-- The invariant of a form.  The image is there once it has been asked
for. -/
structure Form.Sound (form : Form) : Prop where
  index : form.index < (formSteps form.kind).length
  draft : form.draft.Sound form.kind
  image : form.kind = .image → 0 < form.index → form.draft.image.isSome = true

/-- What fits a step that asks for data is exact. -/
theorem FormStep.exact_of_fits {step : FormStep} {value : Json} (h : step.Fits value)
    (hselect : step ≠ .select) (hconfirm : step ≠ .confirm) : value.Exact := by
  cases step with
  | title =>
      obtain ⟨text, rfl⟩ := h
      exact Json.exact_str text
  | columns =>
      obtain ⟨names, rfl⟩ := h
      exact Json.exact_strings names
  | rows =>
      obtain ⟨rows, rfl⟩ := h
      refine Json.exact_arr fun row hmem => ?_
      obtain ⟨values, -, rfl⟩ := List.mem_map.mp hmem
      exact Json.exact_strings values
  | items =>
      obtain ⟨items, rfl⟩ := h
      exact Json.exact_strings items
  | events =>
      obtain ⟨events, rfl⟩ := h
      refine Json.exact_arr fun event hmem => ?_
      obtain ⟨event, -, rfl⟩ := List.mem_map.mp hmem
      have hkeys : (["time", "description"] : List JsonString).Nodup := by decide
      refine Json.exact_obj hkeys fun field hfield => ?_
      simp only [List.mem_cons, List.not_mem_nil, or_false] at hfield
      rcases hfield with rfl | rfl
      · exact Json.exact_str _
      · exact Json.exact_str _
  | tags =>
      obtain ⟨tags, rfl⟩ := h
      exact Json.exact_strings tags
  | category =>
      obtain ⟨name, rfl⟩ := h
      exact Json.exact_ofOption name
  | description =>
      obtain ⟨text, rfl⟩ := h
      exact Json.exact_str text
  | album =>
      obtain ⟨name, rfl⟩ := h
      exact Json.exact_ofOption name
  | select => exact absurd rfl hselect
  | confirm => exact absurd rfl hconfirm

/-- Each step has a field of its own. -/
theorem FormStep.name_injective {step other : FormStep} (h : step.name = other.name) :
    step = other := by
  revert h
  cases step <;> cases other <;> decide

-- ====================================================== setting fields

namespace Draft

variable {kind : Entry.Kind} {draft : Draft}

/-- A field that is set holds its value, and the others theirs. -/
theorem get_set_self (draft : Draft) (key : JsonString) (value : Json) :
    (draft.set key value).get key = value := Record.get_set_self _ _ _

theorem get_set_of_ne (draft : Draft) {key other : JsonString} (value : Json) (h : key ≠ other) :
    (draft.set key value).get other = draft.get other := Record.get_set_of_ne _ _ h

/-- A value that fits the steps of its name keeps the shapes. -/
theorem Sound.set (h : draft.Sound kind) {key : JsonString} {value : Json}
    (hvalue : ∀ step ∈ formSteps kind, key = step.name → step.Fits value)
    (hpath : key = "file_path" → ∃ path, value = .ofOption path) : (draft.set key value).Sound kind
    where
  fits := by
    intro step hstep
    by_cases hkey : key = step.name
    · rw [← hkey, get_set_self]
      exact hvalue step hstep hkey
    · rw [get_set_of_ne draft value hkey]
      exact h.fits step hstep
  path := by
    by_cases hkey : key = "file_path"
    · rw [← hkey, get_set_self]
      exact hpath hkey
    · rw [get_set_of_ne draft value hkey]
      exact h.path

/-- A step's field may hold whatever fits the step. -/
theorem Sound.set_step (h : draft.Sound kind) {step : FormStep} {value : Json}
    (hvalue : step.Fits value) : (draft.set step.name value).Sound kind := by
  refine h.set (fun other _ hname => ?_) fun hname => ?_
  · have hsame : step = other := FormStep.name_injective (JsonString.whole.inj hname)
    exact hsame ▸ hvalue
  · cases step <;> exact absurd hname (by decide)

/-- The image of a draft is not among its fields. -/
theorem Sound.with_image (h : draft.Sound kind) (image : Option Content) :
    { draft with image := image }.Sound kind := ⟨h.fits, h.path⟩

/-- A blank draft holds nothing that does not fit. -/
theorem sound_blank (kind : Entry.Kind) : Draft.Sound kind ⟨blank kind, none⟩ where
  fits := by
    intro step hstep
    cases kind <;> simp only [formSteps, List.mem_cons, List.not_mem_nil, or_false] at hstep
    · rcases hstep with rfl | rfl | rfl | rfl | rfl
      · exact ⟨"", rfl⟩
      · exact ⟨[], rfl⟩
      · exact ⟨[], rfl⟩
      · exact ⟨[], rfl⟩
      · exact ⟨none, rfl⟩
    · rcases hstep with rfl | rfl | rfl | rfl
      · exact ⟨"", rfl⟩
      · exact ⟨[], rfl⟩
      · exact ⟨[], rfl⟩
      · exact ⟨none, rfl⟩
    · rcases hstep with rfl | rfl | rfl | rfl
      · exact ⟨"", rfl⟩
      · exact ⟨[], rfl⟩
      · exact ⟨[], rfl⟩
      · exact ⟨none, rfl⟩
    · rcases hstep with rfl | rfl | rfl | rfl | rfl
      · trivial
      · exact ⟨"", rfl⟩
      · exact ⟨[], rfl⟩
      · exact ⟨none, rfl⟩
      · trivial
  path := by cases kind <;> exact ⟨none, rfl⟩

/-- The description and the tags that go with a picture, as a seed. -/
def pictureSeed (description : Option String) (tags : List String) : Record :=
  [("description", .ofOption description), ("tags", .strings tags)]

/-- The fields of a seed are set one after the other. -/
theorem sound_merge (h : draft.Sound kind) {seed : Record}
    (hseed : ∀ field ∈ seed, (∀ step ∈ formSteps kind, field.1 = step.name → step.Fits field.2)
      ∧ field.1 ≠ "file_path") :
    Draft.Sound kind ⟨Record.merge draft.fields seed, draft.image⟩ := by
  induction seed generalizing draft with
  | nil => exact ⟨h.fits, h.path⟩
  | cons field seed ih =>
      obtain ⟨hfits, hpath⟩ := hseed field List.mem_cons_self
      exact ih (h.set hfits fun hkey => absurd hkey hpath) fun other hmem =>
        hseed other (List.mem_cons_of_mem field hmem)

/-- The seed of a picture fits: a description and tags. -/
theorem sound_start_picture (kind : Entry.Kind) (description : Option String)
    (tags : List String) : (Draft.start kind (pictureSeed description tags)).Sound kind := by
  refine sound_merge (sound_blank kind) fun field hmem => ?_
  obtain ⟨hmem, hset⟩ := List.mem_filter.mp hmem
  simp only [pictureSeed, List.mem_cons, List.not_mem_nil, or_false] at hmem
  rcases hmem with rfl | rfl
  · have hpath : ("description" : JsonString) ≠ "file_path" := by decide
    refine ⟨fun step _ hname => ?_, hpath⟩
    have hstep : FormStep.description = step :=
      FormStep.name_injective (JsonString.whole.inj hname)
    cases description with
    | none => exact absurd hset (by decide)
    | some text => exact hstep ▸ ⟨text, rfl⟩
  · have hpath : ("tags" : JsonString) ≠ "file_path" := by decide
    refine ⟨fun step _ hname => ?_, hpath⟩
    have hstep : FormStep.tags = step := FormStep.name_injective (JsonString.whole.inj hname)
    exact hstep ▸ ⟨tags, rfl⟩

-- ==================================================== fields by name

/-- What the fields of a sound draft hold, by the kind it is for. -/
theorem Sound.tags (h : draft.Sound kind) : ∃ tags, draft.get "tags" = .strings tags :=
  h.fits .tags (by cases kind <;> decide)

theorem Sound.title (h : draft.Sound kind) (hkind : kind ≠ .image) :
    ∃ title : String, draft.get "title" = .ofText title :=
  h.fits .title (by cases kind with
    | image => exact absurd rfl hkind
    | _ => decide)

theorem Sound.category (h : draft.Sound kind) (hkind : kind ≠ .image) :
    ∃ category, draft.get "category" = .ofOption category :=
  h.fits .category (by cases kind with
    | image => exact absurd rfl hkind
    | _ => decide)

theorem Sound.columns (h : draft.Sound .table) : ∃ names, draft.get "columns" = .strings names :=
  h.fits .columns (by decide)

theorem Sound.items (h : draft.Sound .list) : ∃ items, draft.get "items" = .strings items :=
  h.fits .items (by decide)

theorem Sound.events (h : draft.Sound .timeline) :
    ∃ events : List Event, draft.get "events" = .arr (events.map Event.toJson) :=
  h.fits .events (by decide)

/-- The tags of a draft are a list of texts. -/
theorem Sound.tagList (h : draft.Sound kind) :
    ∃ tags : List String, (draft.get "tags").elementsOrNone = .ok (tags.map .ofText) := by
  obtain ⟨tags, htags⟩ := h.tags
  refine ⟨tags, ?_⟩
  rw [htags]
  exact Json.elementsOrNone_arr _

-- ============================================================== prompts

/-- Each step of a form has its prompt. -/
theorem prompt_ok (h : draft.Sound kind) {step : FormStep} (hstep : step ∈ formSteps kind) :
    ∃ messages, step.prompt kind draft = .ok messages := by
  cases step with
  | rows =>
      have hkind : kind = .table := by
        cases kind with
        | table => rfl
        | _ => exact absurd hstep (by decide)
      obtain ⟨names, hnames⟩ := (hkind ▸ h).columns
      unfold FormStep.prompt
      rw [hnames]
      exact ⟨_, rfl⟩
  | confirm =>
      obtain ⟨tags, htags⟩ := h.tagList
      have htext : Entry.tagsText (tags.map .ofText) = .ok (Entry.orNone (", ".intercalate tags)) := by
        unfold Entry.tagsText
        rw [Json.joined_strings]
        rfl
      simp only [FormStep.prompt, htags, bind, Except.bind, htext]
      exact ⟨_, rfl⟩
  | _ => exact ⟨_, rfl⟩

-- ============================================================= payloads

/-- The memory for a table, list or timeline is made of texts. -/
theorem structuredPayload_ok (h : draft.Sound kind) (hkind : kind ≠ .image) :
    ∃ payload, draft.structuredPayload kind = .ok payload ∧ (Json.obj payload).Exact := by
  obtain ⟨tags, htags⟩ := h.tagList
  obtain ⟨title, htitle⟩ := h.title hkind
  obtain ⟨category, hcategory⟩ := h.category hkind
  have hcontent : ∀ key ∈ contentFields kind, (draft.get key).Exact := by
    intro key hmem
    have hstep : ∀ step ∈ formSteps kind, step ≠ .select → step ≠ .confirm →
        key = step.name → (draft.get key).Exact := fun step hstep hselect hconfirm hkey =>
      hkey ▸ FormStep.exact_of_fits (h.fits step hstep) hselect hconfirm
    cases kind with
    | table =>
        simp only [contentFields, List.mem_cons, List.not_mem_nil, or_false] at hmem
        rcases hmem with rfl | rfl
        · exact hstep .columns (by decide) (by decide) (by decide) rfl
        · exact hstep .rows (by decide) (by decide) (by decide) rfl
    | list =>
        exact hstep .items (by decide) (by decide) (by decide) (List.mem_singleton.mp hmem)
    | timeline =>
        exact hstep .events (by decide) (by decide) (by decide)
          (List.mem_singleton.mp hmem)
    | image => exact absurd rfl hkind
  refine ⟨_, by unfold structuredPayload; rw [htags]; rfl, ?_⟩
  have hkeys : ((["type", "content", "tags", "category"] : List JsonString)
      ++ contentFields kind).Nodup := by
    cases kind <;> decide
  refine Json.exact_obj ?_ fun field hmem => ?_
  · rw [List.map_append, List.map_map]
    exact (List.map_id (contentFields kind)).symm ▸ hkeys
  · rcases List.mem_append.mp hmem with hmem | hmem
    · simp only [List.mem_cons, List.not_mem_nil, or_false] at hmem
      rcases hmem with rfl | rfl | rfl | rfl
      · exact Json.exact_str _
      · rw [htitle]
        exact (Json.exact_str _).orElse (Json.exact_str _)
      · exact Json.exact_strings tags
      · rw [hcategory]
        exact Json.exact_ofOption category
    · obtain ⟨key, hkey, rfl⟩ := List.mem_map.mp hmem
      exact hcontent key hkey

/-- The memory for an image with some tags. -/
def imageRecord (draft : Draft) (tags : List String) (uploaded : Record) : Record :=
  [("type", .str "image"),
    ("content", ((draft.get "description").orElse (.str "")).orElse (.str "Image")),
    ("description", (draft.get "description").orElse (.str "")), ("tags", .strings tags),
    ("album", draft.get "album"), ("image_url", Record.get uploaded "image_url"),
    ("image_id", Record.get uploaded "id")]

/-- The payload of an image whose tags are texts. -/
theorem imagePayload_eq {tags : List String}
    (htags : (draft.get "tags").elementsOrNone = .ok (tags.map .ofText)) (uploaded : Record) :
    draft.imagePayload uploaded = .ok (draft.imageRecord tags uploaded) := by
  unfold imagePayload
  rw [htags]
  rfl

/-- What has no image is queued as it would be sent. -/
theorem queuedPayload_structured (draft : Draft) (hkind : kind ≠ .image) :
    draft.queuedPayload kind
      = (do return some (.obj (← draft.structuredPayload kind))) := by
  cases kind with
  | image => exact absurd rfl hkind
  | _ => rfl

/-- What is queued for an image is made of texts. -/
theorem exact_queuedImage (h : draft.Sound .image) (tags : List String) :
    (Json.obj ((draft.imageRecord tags []).set "file_path" (draft.get "file_path"))).Exact := by
  obtain ⟨description, hdescription⟩ := h.fits .description (by decide)
  obtain ⟨album, halbum⟩ := h.fits .album (by decide)
  obtain ⟨path, hpath⟩ := h.path
  have hsaid : (draft.get "description").Exact := by
    show (draft.get FormStep.description.name).Exact
    rw [hdescription]
    exact Json.exact_str _
  have hshown := hsaid.orElse (Json.exact_str "")
  have hkeys : (["type", "content", "description", "tags", "album", "image_url", "image_id",
      "file_path"] : List JsonString).Nodup := by decide
  refine Json.exact_obj hkeys fun field hmem => ?_
  simp only [imageRecord, Record.set, JsonString.whole.injEq, String.reduceEq, if_false,
    List.mem_cons, List.not_mem_nil, or_false] at hmem
  rcases hmem with rfl | rfl | rfl | rfl | rfl | rfl | rfl | rfl
  · exact Json.exact_str _
  · exact hshown.orElse (Json.exact_str _)
  · exact hshown
  · exact Json.exact_strings tags
  · show (draft.get FormStep.album.name).Exact
    rw [halbum]
    exact Json.exact_ofOption album
  · exact Json.exact_null
  · exact Json.exact_null
  · rw [hpath]
    exact Json.exact_ofOption path

/-- What is queued for a form is made of texts; an image is queued only if
its path is known. -/
theorem queuedPayload_ok (h : draft.Sound kind) :
    draft.queuedPayload kind = .ok none
      ∨ ∃ payload, draft.queuedPayload kind = .ok (some (.obj payload))
        ∧ (Json.obj payload).Exact := by
  by_cases hkind : kind = .image
  · subst hkind
    by_cases hpath : (draft.get "file_path").isVacant = true
    · exact .inl (if_pos hpath)
    · obtain ⟨tags, htags⟩ := h.tagList
      refine .inr ⟨_, ?_, exact_queuedImage h tags⟩
      simp only [queuedPayload, if_neg hpath, imagePayload_eq htags]
      rfl
  · obtain ⟨payload, hpayload, hexact⟩ := structuredPayload_ok h hkind
    refine .inr ⟨payload, ?_, hexact⟩
    rw [queuedPayload_structured draft hkind, hpayload]
    rfl

-- ======================================================= what is said

/-- What a form says of a draft can be said, whatever was filled in. -/
theorem createdNote_ok (h : draft.Sound kind) (other : Entry.Kind) :
    ∃ message, draft.createdNote other = .ok message := by
  obtain ⟨tags, htags⟩ := h.tags
  have htagged : ∃ text, taggedPart (draft.get "tags") = .ok text := by
    rw [htags]
    unfold taggedPart
    split
    · exact ⟨_, rfl⟩
    · have hjoined : Json.joined ", " (tags.map .ofText) = .ok (", ".intercalate tags) :=
        Json.joined_strings ", " tags
      refine ⟨" Tags: " ++ ", ".intercalate tags ++ ".", ?_⟩
      show (do return " Tags: " ++ (← Json.joined ", " (tags.map .ofText)) ++ ".") = _
      rw [hjoined]
      rfl
  obtain ⟨text, htext⟩ := htagged
  unfold createdNote
  rw [htext]
  exact ⟨_, rfl⟩

theorem eventLine_ok (event : Event) : ∃ message, eventLine event.toJson = .ok message := by
  have hshown : Entry.eventText (.str event.time) (.str event.description) Entry.dash
      = .ok (.str (event.shown Entry.dash)) := Entry.eventText_str event Entry.dash
  have hline : eventLine event.toJson
      = if (Json.str event.time).isVacant then .ok (note ("  • " ++ event.description))
        else do
          let shown ← Entry.eventText (.str event.time) (.str event.description) Entry.dash
          return note ("  " ++ shown.text) := rfl
  rw [hline, hshown]
  split
  · exact ⟨_, rfl⟩
  · exact ⟨_, rfl⟩

theorem eventLines_ok (events : List Event) :
    ∃ messages, (events.map Event.toJson).mapM eventLine = .ok messages := by
  refine mapM_ok fun value hmem => ?_
  obtain ⟨event, -, rfl⟩ := List.mem_map.mp hmem
  exact eventLine_ok event

/-- The closing messages of a form can be made. -/
theorem savedNotes_ok (h : draft.Sound kind) :
    ∃ messages, draft.savedNotes kind = .ok messages := by
  obtain ⟨created, hcreated⟩ := createdNote_ok h kind
  cases kind with
  | table =>
      unfold savedNotes
      rw [hcreated]
      exact ⟨_, rfl⟩
  | list =>
      obtain ⟨items, hitems⟩ := h.items
      unfold savedNotes
      rw [hcreated, hitems]
      exact ⟨_, rfl⟩
  | timeline =>
      obtain ⟨events, hevents⟩ := h.events
      obtain ⟨lines, hlines⟩ := eventLines_ok events
      refine ⟨[created, draft.heading .timeline] ++ lines, ?_⟩
      show (do
        let created ← draft.createdNote .timeline
        let events ← (draft.get "events").elements
        return [created, draft.heading .timeline] ++ (← events.mapM eventLine)) = _
      rw [hcreated, hevents]
      show (do return [created, draft.heading .timeline]
        ++ (← (events.map Event.toJson).mapM eventLine)) = _
      rw [hlines]
      rfl
  | image => exact ⟨_, rfl⟩

-- ============================================================== saving

/-- What has no image is sent in one request. -/
theorem save_structured (site : Backend.Site) (draft : Draft) (hkind : kind ≠ .image) :
    draft.save site kind
      = (do site.createMemory (← Backend.Call.ofExcept (draft.structuredPayload kind))) := by
  cases kind with
  | image => exact absurd rfl hkind
  | _ => rfl

/-- Saving goes on only after successes, and it stops at no fault. -/
theorem direct_save (h : draft.Sound kind) (site : Backend.Site) :
    Backend.Direct site (draft.save site kind) := by
  by_cases hkind : kind = .image
  · subst hkind
    obtain ⟨tags, htags⟩ := h.tagList
    refine (Backend.direct_uploadImage _ _ _ _ _).bind fun uploaded => ?_
    split
    · exact Backend.direct_pure _
    · rw [imagePayload_eq htags]
      exact (Backend.direct_pure _).bind fun payload => Backend.direct_createMemory payload
  · obtain ⟨payload, hpayload, -⟩ := structuredPayload_ok h hkind
    rw [save_structured site draft hkind, hpayload]
    exact Backend.direct_createMemory payload

/-- Saving asks the backend. -/
theorem asks_save (h : draft.Sound kind) (site : Backend.Site) :
    Backend.Asks (draft.save site kind) := by
  by_cases hkind : kind = .image
  · subst hkind
    refine (Backend.asks_uploadImage _ _ _ _ _).bind (P := (·.method = .post)) fun uploaded => ?_
    split
    · exact Backend.sends_pure _
    · exact (Backend.sends_ofExcept _).bind fun payload => Backend.sends_createMemory payload
  · obtain ⟨payload, hpayload, -⟩ := structuredPayload_ok h hkind
    rw [save_structured site draft hkind, hpayload]
    exact Backend.asks_createMemory payload

end Draft

end Daybook
