/-
What becomes of the entry that a form builds.

# The four ways

A line handed to a form has one of four outcomes, and none of them is a
fault (`answer_accounted`):

- `Left`: the user leaves the form, or does not confirm the upload; no
  request is made and nothing is written.
- `Saved`: the backend is asked, and every answer is a success.
- `Queued`: the last answer says that the backend is out of reach, and the
  text of the entry is added to the outbox.
- `Kept`: the form goes on at one of its steps, and nothing is written.

In all of them the draft changes in the field of the step that was
answered and nowhere else (`Answered`).

An entry that is queued waits in the outbox as long as the file did not stop
in the middle of a line.  If it did, the user is told all the same that the
entry is saved, and it is lost (`queued_entry_lost`).

# How the proof goes

The law is proved along the calls: taking an answer (`take_spec`), saving
(`save_spec`), going on (`advance_spec`), the whole line (`answer_spec`).
A failed save has moved the index past the last step already; parking
takes it back, so the invariant `Form.Sound` holds of every form that goes
on, and of every form that can be met (`sound_of_reachable`).
-/
import Daybook.Proofs.Form.Sound

namespace Daybook

open Backend Http
open Message (reply note)

-- ============================================================= queueing

/-- An entry is given back by its line if its payload is. -/
theorem Outbox.recorded_entry (kind : JsonString) {payload : Record}
    (h : (Json.obj payload).Exact) : Recorded (entry (.str kind) (.obj payload)) := by
  have hkeys : (["kind", "payload"] : List JsonString).Nodup := by decide
  have hexact : (entry (.str kind) (.obj payload)).Exact := by
    refine Json.exact_obj hkeys fun field hmem => ?_
    simp only [List.mem_cons, List.not_mem_nil, or_false] at hmem
    rcases hmem with rfl | rfl
    · exact Json.exact_str kind
    · exact h
  exact ⟨hexact.plain, hexact.writable, _, rfl⟩

/-- An entry that its line gives back is queued, or the outbox cannot be
written, or it is not to be queued. -/
theorem World.queueUnreached_spec (world : World) (e : CallError) {kind : String} {payload : Json}
    (h : Outbox.Recorded (Outbox.entry (.ofText kind) payload)) :
    (e.unreachable = true ∧ world.queueUnreached e kind (some payload)
        = .queued { world with disk := (world.disk.put Outbox.path
            (Outbox.addText (world.disk.get? Outbox.path)
              (Outbox.line (Outbox.entry (.ofText kind) payload)))) })
      ∨ (∃ e', world.queueUnreached e kind (some payload) = .failed e')
      ∨ world.queueUnreached e kind (some payload) = .declined := by
  unfold queueUnreached
  by_cases hunreachable : e.unreachable = true
  · unfold queue Outbox.append
    cases haccess : world.outbox with
    | absent =>
        refine .inr (.inr ?_)
        simp
    | failing =>
        refine .inr (.inl ⟨⟨.full, Outbox.path⟩, ?_⟩)
        simp [hunreachable, Except.map]
    | writable =>
        refine .inl ⟨hunreachable, ?_⟩
        simp [hunreachable, h.writable, Except.map]
  · refine .inr (.inr ?_)
    simp [hunreachable]

-- ==================================================== what is answered

/-- What an answer to a step does to a draft: it leaves it alone or sets
the field of the step, in which a collecting step has one more element. -/
def FormStep.Moves (step : FormStep) (before after : Draft) : Prop :=
  after = before ∨ ∃ value, step.Fits value ∧ after = before.set step.name value
    ∧ (step.collects = true →
      ∃ items item, before.get step.name = .arr items ∧ value = .arr (items ++ [item]))

/-- What can be seen of that: the image and all other fields are as they
were, and a collecting step has at most one element more. -/
structure FormStep.Answered (step : FormStep) (before after : Draft) : Prop where
  image : after.image = before.image
  others : ∀ key : JsonString, key ≠ step.name →
    Record.get? after.fields key = Record.get? before.fields key
  collected : step.collects = true → after = before
    ∨ ∃ items item, before.get step.name = .arr items ∧ after.get step.name = .arr (items ++ [item])

namespace FormStep

variable {kind : Entry.Kind} {step : FormStep} {draft before after : Draft}

theorem Moves.answered (h : step.Moves before after) : step.Answered before after := by
  rcases h with rfl | ⟨value, -, rfl, hcollected⟩
  · exact ⟨rfl, fun _ _ => rfl, fun _ => .inl rfl⟩
  · refine ⟨rfl, fun key hkey => Record.get?_set_of_ne _ _ (Ne.symm hkey), fun hcollects => .inr ?_⟩
    obtain ⟨items, item, hitems, rfl⟩ := hcollected hcollects
    exact ⟨items, item, hitems, Draft.get_set_self _ _ _⟩

/-- A draft stays sound, for the field is set to what fits the step. -/
theorem Moves.sound (h : step.Moves before after) (hbefore : before.Sound kind) :
    after.Sound kind := by
  rcases h with rfl | ⟨value, hfits, rfl, -⟩
  · exact hbefore
  · exact hbefore.set_step hfits

theorem Moves.image (h : step.Moves before after) : after.image = before.image := h.answered.image

/-- A step that does not collect may set its field to anything that
fits. -/
theorem moves_set (value : Json) (hfits : step.Fits value) (h : step.collects = false) :
    step.Moves before (before.set step.name value) := by
  refine .inr ⟨value, hfits, rfl, fun hcollects => ?_⟩
  rw [h] at hcollects
  exact absurd hcollects Bool.false_ne_true

/-- A collecting step may add an element that fits. -/
theorem moves_push {items : List Json} {item : Json} (hitems : before.get step.name = .arr items)
    (hfits : step.Fits (.arr (items ++ [item]))) :
    step.Moves before (before.set step.name (.arr (items ++ [item]))) :=
  .inr ⟨_, hfits, rfl, fun _ => ⟨items, item, hitems, rfl⟩⟩

/-- Pushing onto an array makes it longer by one. -/
theorem push_eq {key : JsonString} {items : List Json} (h : draft.get key = .arr items)
    (value : Json) :
    draft.push key value = .ok (draft.set key (.arr (items ++ [value])), items.length + 1) := by
  unfold Draft.push
  rw [h]

/-- A skipped step leaves what it would leave after an answer. -/
theorem moves_skipped {value : Json} (h : step.skipped? = some value) :
    step.Moves before (before.set step.name value) := by
  cases step with
  | title => exact moves_set value ⟨"", (Option.some.inj h).symm⟩ rfl
  | tags => exact moves_set value ⟨[], (Option.some.inj h).symm⟩ rfl
  | category => exact moves_set value ⟨none, (Option.some.inj h).symm⟩ rfl
  | description => exact moves_set value ⟨"", (Option.some.inj h).symm⟩ rfl
  | album => exact moves_set value ⟨none, (Option.some.inj h).symm⟩ rfl
  | _ => cases h

/-- A row is taken if it is as wide as the columns are many. -/
theorem take_rows {width : Nat} (h : sizeOf (draft.get "columns") = .ok width) (text : String) :
    FormStep.rows.take draft text
      = if (Text.cellsIn text).length ≠ width then
          .ok (.rejected ("Row should have " ++ toString width ++ " values (you entered " ++
            toString (Text.cellsIn text).length ++ "). Try again:"))
        else do
          let (draft, count) ← draft.push "rows" (.strings (Text.cellsIn text))
          return .taken draft [reply ("Row " ++ toString count ++ " added: " ++
            " | ".intercalate (Text.cellsIn text))] := by
  simp only [take]
  rw [h]
  rfl

/-- Whether an answer is taken; then it changes the field of its step at
most. -/
def Accepts (step : FormStep) (draft : Draft) (text : String) : Prop :=
  ∃ after messages, step.take draft text = .ok (.taken after messages)
    ∧ step.Moves draft after ∧ step ≠ .select

/-- A step that does not collect takes an answer by setting its field. -/
theorem accepts_set {value : Json} {messages : List Message} {text : String}
    (htake : step.take draft text = .ok (.taken (draft.set step.name value) messages))
    (hfits : step.Fits value) (hcollects : step.collects = false) (hselect : step ≠ .select) :
    step.Accepts draft text :=
  ⟨_, messages, htake, moves_set value hfits hcollects, hselect⟩

/-- A row that is as wide as the columns are many is collected. -/
theorem accepts_rows {rows : List (List String)} {text : String}
    (hrows : draft.get FormStep.rows.name = .arr (rows.map .strings))
    (hsize : sizeOf (draft.get "columns") = .ok (Text.cellsIn text).length) :
    FormStep.rows.Accepts draft text := by
  have hfits : FormStep.rows.Fits (.arr (rows.map .strings ++ [.strings (Text.cellsIn text)])) :=
    ⟨rows ++ [Text.cellsIn text], by rw [List.map_append]; rfl⟩
  have htake : FormStep.rows.take draft text
      = .ok (.taken (draft.set FormStep.rows.name
          (.arr (rows.map .strings ++ [.strings (Text.cellsIn text)])))
        [reply ("Row " ++ toString ((rows.map Json.strings).length + 1) ++ " added: " ++
          " | ".intercalate (Text.cellsIn text))]) := by
    rw [take_rows hsize, if_neg (not_not_intro rfl)]
    show (draft.push FormStep.rows.name (.strings (Text.cellsIn text)) >>= _) = _
    rw [push_eq hrows]
    rfl
  exact ⟨_, _, htake, moves_push hrows hfits, by decide⟩

/-- Every item is collected. -/
theorem accepts_items {items : List String} {text : String}
    (hitems : draft.get FormStep.items.name = .strings items) : FormStep.items.Accepts draft text := by
  have hfits : FormStep.items.Fits (.arr (items.map .ofText ++ [.ofText text])) :=
    ⟨items ++ [text], by unfold Json.strings; rw [List.map_append]; rfl⟩
  have htake : FormStep.items.take draft text
      = .ok (.taken (draft.set FormStep.items.name (.arr (items.map .ofText ++ [.ofText text])))
        [reply ("  " ++ toString ((items.map Json.ofText).length + 1) ++ ". " ++ text)]) := by
    show (draft.push FormStep.items.name (.ofText text) >>= _) = _
    rw [push_eq hitems]
    rfl
  exact ⟨_, _, htake, moves_push hitems hfits, by decide⟩

/-- Every event is collected as it is read. -/
theorem accepts_events {events : List Entry.Event} {text : String}
    (hevents : draft.get FormStep.events.name = .arr (events.map Entry.Event.toJson)) :
    FormStep.events.Accepts draft text := by
  let event := Entry.Event.read text
  have hfits : FormStep.events.Fits (.arr (events.map Entry.Event.toJson ++ [event.toJson])) :=
    ⟨events ++ [event], by rw [List.map_append]; rfl⟩
  have htake : FormStep.events.take draft text
      = .ok (.taken (draft.set FormStep.events.name
          (.arr (events.map Entry.Event.toJson ++ [event.toJson])))
        [reply ("  " ++ toString ((events.map Entry.Event.toJson).length + 1) ++ ". " ++
          (if event.time = "" then "• " ++ event.description
            else event.shown Entry.dash))]) := by
    show (draft.push FormStep.events.name event.toJson >>= _) = _
    rw [push_eq hevents]
    rfl
  exact ⟨_, _, htake, moves_push hevents hfits, by decide⟩

/-- An answer is rejected, calls the upload off, or is taken. -/
theorem take_spec (h : draft.Sound kind) (hstep : step ∈ formSteps kind) (text : String) :
    (∃ reason, step.take draft text = .ok (.rejected reason))
      ∨ (∃ reason, step.take draft text = .ok (.calledOff reason) ∧ step = .confirm
        ∧ Text.lowercase text ∉ saveWords)
      ∨ ∃ after messages, step.take draft text = .ok (.taken after messages)
        ∧ step.Moves draft after ∧ step ≠ .select := by
  cases step with
  | title => exact .inr (.inr (accepts_set rfl ⟨text, rfl⟩ rfl (by decide)))
  | columns =>
      cases hnames : Text.namesIn text with
      | nil =>
          refine .inl ⟨"Please enter at least one column name.", ?_⟩
          simp only [take, hnames]
      | cons name names =>
          have htake : FormStep.columns.take draft text
              = .ok (.taken (draft.set FormStep.columns.name (.strings (name :: names)))
                [reply ("Columns: " ++ " | ".intercalate (name :: names))]) := by
            simp only [take, hnames, FormStep.name]
          exact .inr (.inr (accepts_set htake ⟨_, rfl⟩ rfl (by decide)))
  | rows =>
      have hkind : kind = .table := by
        cases kind with
        | table => rfl
        | _ => exact absurd hstep (by decide)
      subst hkind
      obtain ⟨names, hnames⟩ := h.columns
      obtain ⟨rows, hrows⟩ := h.fits .rows hstep
      have hsize : sizeOf (draft.get "columns") = .ok names.length := by
        rw [hnames]
        exact congrArg Except.ok (List.length_map _)
      by_cases hwidth : (Text.cellsIn text).length = names.length
      · exact .inr (.inr (accepts_rows hrows (hwidth ▸ hsize)))
      · exact .inl ⟨_, (take_rows hsize text).trans (if_pos hwidth)⟩
  | items =>
      obtain ⟨items, hitems⟩ := h.fits .items hstep
      exact .inr (.inr (accepts_items hitems))
  | events =>
      obtain ⟨events, hevents⟩ := h.fits .events hstep
      exact .inr (.inr (accepts_events hevents))
  | tags => exact .inr (.inr (accepts_set rfl ⟨Text.namesIn text, rfl⟩ rfl (by decide)))
  | category => exact .inr (.inr (accepts_set rfl ⟨some text, rfl⟩ rfl (by decide)))
  | select => exact .inl ⟨_, rfl⟩
  | description => exact .inr (.inr (accepts_set rfl ⟨text, rfl⟩ rfl (by decide)))
  | album => exact .inr (.inr (accepts_set rfl ⟨some text, rfl⟩ rfl (by decide)))
  | confirm =>
      by_cases hword : Text.lowercase text ∈ saveWords
      · have htake : FormStep.confirm.take draft text = .ok (.taken draft []) :=
          congrArg Except.ok (if_pos hword)
        exact .inr (.inr ⟨_, _, htake, .inl rfl, by decide⟩)
      · have htake : FormStep.confirm.take draft text
            = .ok (.calledOff "Image upload cancelled.") := congrArg Except.ok (if_neg hword)
        exact .inr (.inl ⟨_, htake, rfl, hword⟩)

end FormStep

namespace Form

variable {form : Form} {line : String} {world after : World} {turn : Turn Form}

-- ============================================================= outcomes

/-- The user leaves: nothing is sent and nothing is written. -/
structure Left (form : Form) (line : String) (world : World) (turn : Turn Form) (after : World) :
    Prop where
  ended : turn.ended = true
  completed : turn.completed = false
  asked : Text.lowercase (Text.trimmed line) ∈ cancelWords
    ∨ form.kind = .image ∧ form.step? = some .confirm
      ∧ Text.lowercase (Text.trimmed line) ∉ FormStep.saveWords
  world : after = world

/-- The entry is saved: requests were made, and all their answers are
successes. -/
structure Saved (world : World) (turn : Turn Form) (after : World) : Prop where
  ended : turn.ended = true
  completed : turn.completed = true
  exchange : ∃ requests, requests ≠ [] ∧ after = { world with wire := world.wire.sendAll requests }
    ∧ ∀ i < requests.length, ∃ content, decode world.site (world.wire.answer i) = .ok content

/-- The entry is queued: the last request found the backend out of reach,
and the form's payload under its kind was added to the outbox. -/
structure Queued (world : World) (turn : Turn Form) (after : World) : Prop where
  ended : turn.ended = true
  completed : turn.completed = false
  exchange : ∃ requests last e payload, requests.length = last + 1
    ∧ (∀ i < last, ∃ content, decode world.site (world.wire.answer i) = .ok content)
    ∧ decode world.site (world.wire.answer last) = .error e ∧ e.unreachable = true
    ∧ turn.state.draft.queuedPayload turn.state.kind = .ok (some payload)
    ∧ after = { world with
        wire := world.wire.sendAll requests
        disk := world.disk.put Outbox.path (Outbox.addText (world.disk.get? Outbox.path)
          (Outbox.line (Outbox.entry (.str turn.state.kind.name) payload))) }
    ∧ Outbox.Added (Outbox.entry (.str turn.state.kind.name) payload) world.disk after.disk

/-- The form goes on at one of its steps, and nothing is written. -/
structure Kept (world : World) (turn : Turn Form) (after : World) : Prop where
  ended : turn.ended = false
  completed : turn.completed = false
  index : turn.state.index < (formSteps turn.state.kind).length
  world : ∃ wire, after = { world with wire := wire }

-- ============================================================== prompts

/-- A position in the table of steps is that of a step. -/
theorem mem_of_index {kind : Entry.Kind} {index : Nat} (h : index < (formSteps kind).length) :
    ∃ step ∈ formSteps kind, (formSteps kind)[index]? = some step :=
  ⟨_, List.getElem_mem h, List.getElem?_eq_getElem h⟩

theorem lastIndex_lt (kind : Entry.Kind) : lastIndex kind < (formSteps kind).length := by
  cases kind <;> decide

/-- What a form says before it asks on. -/
theorem saying_ok (form : Form) (hdraft : form.draft.Sound form.kind)
    (hindex : form.index < (formSteps form.kind).length) (messages : List Message) :
    ∃ said, form.saying messages = .ok said := by
  obtain ⟨step, hmem, hstep⟩ := mem_of_index hindex
  obtain ⟨asked, hasked⟩ := Draft.prompt_ok hdraft hmem
  have hprompt : form.prompt = .ok asked := by
    unfold prompt step?
    rw [hstep]
    exact hasked
  unfold saying
  rw [hprompt]
  exact ⟨_, rfl⟩

-- =============================================================== saving

/-- What saving makes of a form: it says something, leaves the draft and
the kind alone, and saves, queues or keeps the entry. -/
structure Settled (form : Form) (world : World) (turn : Turn Form) (after : World) : Prop where
  reply : ∃ messages, turn.reply = .ok messages
  draft : turn.state.draft = form.draft
  kind : turn.state.kind = form.kind
  outcome : Saved world turn after ∨ Queued world turn after ∨ Kept world turn after

/-- Parking keeps the form at its last step. -/
theorem park_settled (hdraft : form.draft.Sound form.kind) (messages : List Message)
    (failure : String) (hafter : ∃ wire, after = { world with wire := wire }) :
    Settled form world (form.park messages failure) after := by
  have hlast := lastIndex_lt form.kind
  refine ⟨?_, rfl, rfl, .inr (.inr ⟨rfl, rfl, hlast, hafter⟩)⟩
  exact saying_ok { form with index := lastIndex form.kind } hdraft hlast _

/-- Nothing is sent once a save has failed. -/
theorem wire_saveFailed (form : Form) (messages : List Message) (world : World) (e : CallError) :
    (form.saveFailed messages world e).2.wire = world.wire := by
  unfold saveFailed
  split
  · rfl
  · split
    · next hqueued => exact World.wire_of_queued hqueued
    · rfl
    · next hfaulty => exact World.wire_of_faulty hfaulty
    · rfl

/-- All that is sent is what the draft sends. -/
theorem wire_save (form : Form) (messages : List Message) (world : World) :
    (form.save messages world).2.wire = ((form.draft.save world.site form.kind).on world.wire).2 := by
  unfold save
  rw [World.run_eq]
  cases ((form.draft.save world.site form.kind).on world.wire).1 with
  | ok created => rfl
  | error trouble =>
      cases trouble with
      | call e => exact wire_saveFailed _ _ _ e
      | fault f => rfl
      | file e => rfl

/-- A failed save queues the entry if the backend was out of reach and the
outbox takes it; otherwise the form is parked. -/
theorem saveFailed_settled (hdraft : form.draft.Sound form.kind) (messages : List Message)
    {requests : List Request} {last : Nat} {e : CallError} (hlength : requests.length = last + 1)
    (hall : ∀ i < last, ∃ content, decode world.site (world.wire.answer i) = .ok content)
    (hlast : decode world.site (world.wire.answer last) = .error e) :
    Settled form world
      (form.saveFailed messages { world with wire := world.wire.sendAll requests } e).1
      (form.saveFailed messages { world with wire := world.wire.sendAll requests } e).2 := by
  unfold saveFailed
  rcases Draft.queuedPayload_ok hdraft with hnone | ⟨payload, hpayload, hexact⟩
  · rw [hnone]
    exact park_settled hdraft _ _ ⟨_, rfl⟩
  · have hrecorded := Outbox.recorded_entry (.whole form.kind.name) hexact
    rw [hpayload]
    dsimp only
    rcases World.queueUnreached_spec { world with wire := world.wire.sendAll requests } e hrecorded
      with ⟨hunreachable, hqueued⟩ | ⟨e', hfailed⟩ | hdeclined
    · rw [hqueued]
      refine ⟨⟨_, rfl⟩, rfl, rfl, .inr (.inl ⟨rfl, rfl, requests, last, e, _, hlength, hall, hlast,
        hunreachable, hpayload, rfl, Outbox.added_put_line hrecorded world.disk⟩)⟩
    · rw [hfailed]
      exact park_settled hdraft _ _ ⟨_, rfl⟩
    · rw [hdeclined]
      exact park_settled hdraft _ _ ⟨_, rfl⟩

/-- Saving settles the form: the requests of the draft are its only ones, and
the last of them decides. -/
theorem save_settled (form : Form) (hdraft : form.draft.Sound form.kind) (messages : List Message)
    (world : World) :
    Settled form world (form.save messages world).1 (form.save messages world).2 := by
  obtain ⟨requests, hwire, htells⟩ := Draft.direct_save hdraft world.site world.wire
  obtain ⟨request, more, hsent⟩ := Draft.asks_save hdraft world.site world.wire
  have hne : requests ≠ [] := by
    rintro rfl
    rw [hwire] at hsent
    have hlength := congrArg List.length hsent
    rw [List.length_append, List.length_cons] at hlength
    have : (world.wire.sendAll []).sent.length = world.wire.sent.length := rfl
    omega
  cases hon : (form.draft.save world.site form.kind).on world.wire with
  | mk result wire =>
      rw [hon] at hwire htells
      have hrun : world.run (form.draft.save world.site form.kind)
          = (result, { world with wire := world.wire.sendAll requests }) := by
        rw [World.run_eq, hon]
        exact congrArg (fun wire => (result, { world with wire := wire })) hwire
      unfold save
      rw [hrun]
      cases result with
      | ok created =>
          obtain ⟨notes, hnotes⟩ := Draft.savedNotes_ok hdraft
          rw [hnotes]
          exact ⟨⟨_, rfl⟩, rfl, rfl, .inl ⟨rfl, rfl, requests, hne, rfl, htells⟩⟩
      | error trouble =>
          cases trouble with
          | call e =>
              obtain ⟨last, hlength, hall, hlast⟩ := htells
              exact saveFailed_settled hdraft messages hlength hall hlast
          | file e => exact htells.elim
          | fault f => exact htells.elim

/-- Behind the last step the form is saved; before it, it goes on. -/
theorem advance_settled (form : Form) (hdraft : form.draft.Sound form.kind) (messages : List Message)
    (world : World) :
    Settled form world (form.advance messages world).1 (form.advance messages world).2 := by
  unfold advance
  dsimp only
  split
  · next hindex =>
      refine ⟨?_, rfl, rfl, .inr (.inr ⟨rfl, rfl, hindex, world.wire, rfl⟩)⟩
      exact saying_ok { form with index := form.index + 1 } hdraft hindex messages
  · have hsave := save_settled { form with index := form.index + 1 } hdraft messages world
    exact ⟨hsave.reply, hsave.draft, hsave.kind, hsave.outcome⟩

-- ============================================================== one line

/-- What a line comes to that answers a step. -/
structure Answers (form : Form) (line : String) (world : World) (step : FormStep)
    (turn : Turn Form) (after : World) : Prop where
  reply : ∃ messages, turn.reply = .ok messages
  moves : step.Moves form.draft turn.state.draft
  kind : turn.state.kind = form.kind
  outcome : Left form line world turn after ∨ Saved world turn after ∨ Queued world turn after
    ∨ Kept world turn after
  sound : turn.ended = false → turn.state.Sound

/-- Behind the selection the image is there. -/
theorem image_of_step (h : form.Sound) {step : FormStep} (hstep : form.step? = some step)
    (hselect : step ≠ .select) (hkind : form.kind = .image) : form.draft.image.isSome = true := by
  refine h.image hkind (Nat.pos_of_ne_zero fun hzero => hselect ?_)
  unfold step? at hstep
  rw [hzero, hkind] at hstep
  exact (Option.some.inj hstep).symm

/-- A line that leaves the form as it is keeps it. -/
theorem answers_go (h : form.Sound) (line : String) (world : World) (step : FormStep)
    (messages : List Message) :
    Answers form line world step (.go form (.ok messages)) world :=
  ⟨⟨_, rfl⟩, .inl rfl, rfl, .inr (.inr (.inr ⟨rfl, rfl, h.index, world.wire, rfl⟩)), fun _ => h⟩

/-- A line that stops the form leaves it, if the user asked for that. -/
theorem answers_stop (line : String) (world : World) (step : FormStep) (messages : List Message)
    (hasked : Text.lowercase (Text.trimmed line) ∈ cancelWords
      ∨ form.kind = .image ∧ form.step? = some .confirm
        ∧ Text.lowercase (Text.trimmed line) ∉ FormStep.saveWords) :
    Answers form line world step (.stop form messages) world :=
  ⟨⟨_, rfl⟩, .inl rfl, rfl, .inl ⟨rfl, rfl, hasked, rfl⟩, fun hgo => nomatch hgo⟩

/-- Going on from a step with its field changed. -/
theorem answers_advance (h : form.Sound) (line : String) (world : World) {step : FormStep}
    (hstep : form.step? = some step) (hselect : step ≠ .select) {draft : Draft}
    (hmoves : step.Moves form.draft draft) (messages : List Message) :
    Answers form line world step ({ form with draft := draft }.advance messages world).1
      ({ form with draft := draft }.advance messages world).2 := by
  have hdraft : draft.Sound form.kind := hmoves.sound h.draft
  have hsettled := advance_settled { form with draft := draft } hdraft messages world
  refine ⟨hsettled.reply, ?_, hsettled.kind, .inr hsettled.outcome, fun hgo => ?_⟩
  · rw [hsettled.draft]
    exact hmoves
  · rcases hsettled.outcome with hsaved | hqueued | hkept
    · rw [hsaved.ended] at hgo
      cases hgo
    · rw [hqueued.ended] at hgo
      cases hgo
    -- only a form that goes on has to be sound again
    · refine ⟨hkept.index, ?_, fun hkind _ => ?_⟩
      · rw [hsettled.draft, hsettled.kind]
        exact hdraft
      · rw [hsettled.draft]
        rw [hsettled.kind] at hkind
        show draft.image.isSome = true
        rw [hmoves.image]
        exact image_of_step h hstep hselect hkind

/-- A line that is neither a way out nor a way on is an answer to the step. -/
theorem answers_answerStep (h : form.Sound) (line : String) (world : World) {step : FormStep}
    (hmem : step ∈ formSteps form.kind) (hstep : form.step? = some step) :
    Answers form line world step (form.answerStep step (Text.trimmed line) world).1
      (form.answerStep step (Text.trimmed line) world).2 := by
  unfold answerStep
  rcases FormStep.take_spec h.draft hmem (Text.trimmed line) with
    ⟨reason, htake⟩ | ⟨reason, htake, rfl, hword⟩ | ⟨draft, messages, htake, hmoves, hselect⟩
  · rw [htake]
    exact answers_go h line world step _
  · rw [htake]
    have hkind : form.kind = .image := by
      cases hkind : form.kind with
      | image => rfl
      | _ =>
          rw [hkind] at hmem
          exact absurd hmem (by decide)
    exact answers_stop line world _ _ (.inr ⟨hkind, hstep, hword⟩)
  · rw [htake]
    dsimp only
    split
    · refine ⟨⟨_, rfl⟩, hmoves, rfl, .inr (.inr (.inr ⟨rfl, rfl, h.index, world.wire, rfl⟩)),
        fun _ => ⟨h.index, hmoves.sound h.draft, fun hkind _ => ?_⟩⟩
      show draft.image.isSome = true
      rw [hmoves.image]
      exact image_of_step h hstep hselect hkind
    · exact answers_advance h line world hstep hselect hmoves messages

/-- Every line answers the step that the form waits at, or gets past it. -/
theorem answer_spec (h : form.Sound) (line : String) (world : World) :
    ∃ step, form.step? = some step
      ∧ Answers form line world step (form.answer line world).1 (form.answer line world).2 := by
  obtain ⟨step, hmem, hstep⟩ := mem_of_index h.index
  refine ⟨step, hstep, ?_⟩
  have hwaits : form.step? = some step := hstep
  unfold answer
  dsimp only
  split
  · next hcancel => exact answers_stop line world step _ (.inl hcancel)
  rw [hwaits]
  dsimp only
  split
  · next hdone =>
      have hselect : step ≠ .select := by
        rintro rfl
        cases hdone
      split
      · exact answers_go h line world step _
      · exact answers_advance h line world hwaits hselect (.inl rfl) []
  · split
    · next value hskip =>
        have hskipped : step.skipped? = some value := by
          split at hskip
          · exact hskip
          · cases hskip
        have hselect : step ≠ .select := by
          rintro rfl
          cases hskipped
        exact answers_advance h line world hwaits hselect (FormStep.moves_skipped hskipped) []
    · exact answers_answerStep h line world hmem hwaits

-- ==================================================== reachable forms

/-- Only an image is selected, and that first. -/
theorem select_first (hstep : form.step? = some .select) : form.kind = .image ∧ form.index = 0 := by
  obtain ⟨kind, draft, index⟩ := form
  have hmem : FormStep.select ∈ formSteps kind := List.mem_of_getElem? hstep
  cases kind with
  | image =>
      refine ⟨rfl, ?_⟩
      match index with
      | 0 => rfl
      | 1 | 2 | 3 | 4 => cases hstep
      | _ + 5 => cases hstep
  | _ => exact absurd hmem (by decide)

/-- A file is taken by a form that waits for one, and there it brings the
image. -/
theorem deliver_spec (h : form.Sound) (filename : String) (image : Content)
    (path : Option String) :
    (form.deliver filename image path).state.Sound
      ∧ ∃ messages, (form.deliver filename image path).reply = .ok messages := by
  unfold deliver
  split
  · next hstep =>
      obtain ⟨hkind, hindex⟩ := select_first hstep
      let named := Draft.set { form.draft with image := some image } "filename" (.str filename)
      let draft := named.set "file_path" (.ofOption path)
      have hnamed : named.Sound form.kind := by
        refine (h.draft.with_image (some image)).set (fun step _ hname => ?_) fun hname => ?_
        · cases step <;> exact absurd hname (by decide)
        · exact absurd hname (by decide)
      have hdraft : draft.Sound form.kind := by
        refine hnamed.set (fun step _ hname => ?_) fun _ => ⟨path, rfl⟩
        cases step <;> exact absurd hname (by decide)
      have hlast : (if (draft.get "description").isVacant then form.index + 1
          else lastIndex form.kind) < (formSteps form.kind).length := by
        split
        · rw [hindex, hkind]
          decide
        · exact lastIndex_lt form.kind
      exact ⟨⟨hlast, hdraft, fun _ _ => rfl⟩, saying_ok ⟨form.kind, draft, _⟩ hdraft hlast _⟩
  · exact ⟨h, _, rfl⟩

/-- The forms that can be met: opened with no seed or with that of a
picture, and then taken on by lines and files. -/
inductive Reachable : Form → Prop
  | start (kind : Entry.Kind) : Reachable (Form.start kind [])
  | picture (kind : Entry.Kind) (description : Option String) (tags : List String) :
    Reachable (Form.start kind (Draft.pictureSeed description tags))
  | answer {form : Form} (h : Reachable form) (line : String) (world : World)
    (hgo : (form.answer line world).1.ended = false) : Reachable (form.answer line world).1.state
  | deliver {form : Form} (h : Reachable form) (filename : String) (image : Content)
    (path : Option String) : Reachable (form.deliver filename image path).state

theorem sound_start {kind : Entry.Kind} {seed : Record} (h : (Draft.start kind seed).Sound kind) :
    (Form.start kind seed).Sound := by
  refine ⟨?_, h, fun _ hindex => absurd hindex (Nat.lt_irrefl 0)⟩
  show 0 < (formSteps kind).length
  cases kind <;> decide

/-- Every form that can be met is sound. -/
theorem sound_of_reachable (h : form.Reachable) : form.Sound := by
  induction h with
  | start kind => exact sound_start (Draft.sound_blank kind)
  | picture kind description tags =>
      exact sound_start (Draft.sound_start_picture kind description tags)
  | answer _ line world hgo ih =>
      obtain ⟨step, -, hanswers⟩ := answer_spec ih line world
      exact hanswers.sound hgo
  | deliver _ filename image path ih => exact (deliver_spec ih filename image path).1

/-- What becomes of every line that is handed to a form that can be met, with
whatever backend, files and outbox: there is an answer, the draft changes in
the field of the step at most, and the form is left by the user, saved,
queued or kept. -/
theorem answer_accounted (h : form.Reachable) (line : String) (world : World) :
    let turn := (form.answer line world).1
    let after := (form.answer line world).2
    ∃ step messages, form.step? = some step ∧ turn.reply = .ok messages
      ∧ turn.state.kind = form.kind ∧ step.Answered form.draft turn.state.draft
      ∧ (Left form line world turn after ∨ Saved world turn after ∨ Queued world turn after
        ∨ Kept world turn after) := by
  obtain ⟨step, hstep, hanswers⟩ := answer_spec (sound_of_reachable h) line world
  obtain ⟨messages, hreply⟩ := hanswers.reply
  exact ⟨step, messages, hstep, hreply, hanswers.kind, hanswers.moves.answered, hanswers.outcome⟩

/-- Surroundings without a connection, with this text in the outbox. -/
def offline (text : String) : World :=
  ⟨⟨"http://api.test/api", none⟩, ⟨[], .lost, []⟩,
    (Disk.mk "/home" [] []).put Outbox.path (.text text), .writable⟩

/-- A list that is filled in up to its category. -/
def shopping : Form :=
  ["Shopping", "milk", "done", "skip"].foldl
    (fun form line => (form.answer line (offline "")).1.state) (.start .list [])

/-- What is queued of that list. -/
def shoppingEntry : Json :=
  Outbox.entry (.str "list") (.obj [("type", .str "list"), ("content", .str "Shopping"),
    ("tags", .arr []), ("category", .str "food"), ("items", .arr [.str "milk"])])

/-- A note that waits in the outbox. -/
def noteEntry : Json :=
  Outbox.entry (.str "text") (.obj [("type", .str "text"), ("content", .str "Call Ben")])

/-- That list is a form that can be met. -/
theorem reachable_shopping : shopping.Reachable :=
  (((Reachable.start .list).answer "Shopping" _ (by decide +kernel)).answer "milk" _
    (by decide +kernel)).answer "done" _ (by decide +kernel) |>.answer "skip" _ (by decide +kernel)

/-- What waits there is what the text holds. -/
theorem pending_offline (text : String) :
    Outbox.pending (offline text).disk = Outbox.entriesIn text := by
  unfold Outbox.pending offline
  rw [Disk.get?_put_self]

theorem recorded_noteEntry : Outbox.Recorded noteEntry := ⟨by decide, by decide, _, rfl⟩

/-- The category is the last answer, and the backend is out of reach.  Behind
a note that ends its line, the list waits in the outbox. -/
theorem answer_accounted_shopping :
    let world := offline (Outbox.line noteEntry)
    let turn := (shopping.answer "food" world).1
    let after := (shopping.answer "food" world).2
    shopping.Reachable ∧ shopping.step? = some .category ∧ Queued world turn after
      ∧ Outbox.pending after.disk = .ok [noteEntry, shoppingEntry] := by
  intro world turn after
  obtain ⟨step, messages, hstep, -, -, -, hleft | hsaved | hqueued | hkept⟩ :=
    answer_accounted reachable_shopping "food" world
  · exact absurd hleft.asked (by decide +kernel)
  · exact absurd hsaved.completed (by decide +kernel)
  · refine ⟨reachable_shopping, by decide +kernel, hqueued, ?_⟩
    obtain ⟨_, _, _, payload, -, -, -, -, hpayload, -, hadded⟩ := hqueued.exchange
    have hlist : turn.state.draft.queuedPayload turn.state.kind
        = .ok (some (.obj [("type", .str "list"), ("content", .str "Shopping"), ("tags", .arr []),
          ("category", .str "food"), ("items", .arr [.str "milk"])])) := rfl
    cases hlist.symm.trans hpayload
    have hended : Outbox.stopsMidLine world.disk = false := by decide +kernel
    rw [hadded.waits hended, pending_offline, Outbox.entriesIn_line_alone recorded_noteEntry]
    rfl
  · exact absurd hkept.ended (by decide +kernel)

/-- The same answer, with no line feed behind the note.  The user is told that
the list is saved, and neither of the two waits in the outbox any more. -/
theorem queued_entry_lost :
    let world := offline noteEntry.compose
    let turn := (shopping.answer "food" world).1
    let after := (shopping.answer "food" world).2
    shopping.Reachable ∧ turn.ended = true ∧ turn.completed = false
      ∧ turn.reply = .ok [reply "List saved locally. (Backend unavailable)"]
      ∧ Outbox.pending world.disk = .ok [noteEntry] ∧ Outbox.pending after.disk = .ok [] := by
  intro world turn after
  have hbefore : Outbox.pending world.disk = .ok [noteEntry] := by
    rw [pending_offline, Outbox.entriesIn_compose recorded_noteEntry]
  have hnone : (Outbox.pending after.disk).toOption.map List.isEmpty = some true := by decide +kernel
  refine ⟨reachable_shopping, by decide +kernel, by decide +kernel, rfl, hbefore, ?_⟩
  cases hafter : Outbox.pending after.disk with
  | error f =>
      rw [hafter] at hnone
      cases hnone
  | ok entries =>
      rw [hafter] at hnone
      rw [List.isEmpty_iff.mp (Option.some.inj hnone)]

end Form
end Daybook
