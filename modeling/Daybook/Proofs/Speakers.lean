/-
Who speaks.

All that a session says is said in one of two voices, that of Mother or that
of the guide; only the line that was typed bears the name of the user, and it
is put before everything else when all has been said (`spoken_handle`).

This is a property of whole replies, so it is checked along the code: a list
of messages is `Spoken` if each of them is, and `Gives` carries that through
the steps at which a reply may still stop at a fault.
-/
import Daybook.Proofs.Session.Run

namespace Daybook

open Message (reply note)

variable {α β : Type}

-- ============================================================== properties

/-- Whether all that can come of a computation has a property. -/
def Gives (P : α → Prop) (value : Except Fault α) : Prop := ∀ a, value = .ok a → P a

/-- A computation that succeeds gives its result. -/
@[simp] theorem gives_ok {P : α → Prop} {a : α} : Gives P (.ok a) ↔ P a := by
  refine ⟨fun h => h a rfl, fun h other hother => ?_⟩
  cases hother
  exact h

@[simp] theorem gives_pure {P : α → Prop} {a : α} : Gives P (pure a) ↔ P a := gives_ok

@[simp] theorem gives_error {P : α → Prop} {f : Fault} : Gives P (.error f) := fun _ h => nomatch h

/-- What the first computation gives may be used in the second one. -/
theorem Gives.bind {P : α → Prop} {Q : β → Prop} {value : Except Fault α}
    {next : α → Except Fault β} (h : Gives P value) (hnext : ∀ a, P a → Gives Q (next a)) :
    Gives Q (value >>= next) := by
  intro b hb
  obtain ⟨a, ha, hb⟩ := ok_of_bind hb
  exact hnext a (h a ha) b hb

/-- What is computed on the way may be anything. -/
theorem gives_bind {P : β → Prop} {value : Except Fault α} {next : α → Except Fault β}
    (hnext : ∀ a, Gives P (next a)) : Gives P (value >>= next) :=
  Gives.bind (fun _ _ => trivial) fun a _ => hnext a

/-- What is made of a result has a property if the result has one that brings
it along. -/
theorem Gives.map {P : α → Prop} {Q : β → Prop} {value : Except Fault α} {f : α → β}
    (h : Gives P value) (hf : ∀ a, P a → Q (f a)) : Gives Q (value.map f) := by
  cases value with
  | ok a => exact gives_ok.mpr (hf a (h a rfl))
  | error f => exact gives_error

/-- The property may also come from the making alone, whatever the result is. -/
theorem gives_map {P : β → Prop} {value : Except Fault α} {f : α → β} (hf : ∀ a, P (f a)) :
    Gives P (value.map f) := Gives.map (fun _ _ => trivial) fun a _ => hf a

/-- Whether a message is said in one of the two voices. -/
def Message.Voiced (message : Message) : Prop :=
  message.speaker = Message.mother ∨ message.speaker = Message.guide

/-- Mother replies. -/
@[simp] theorem Message.voiced_reply (text : String) : (reply text).Voiced := .inl rfl

/-- The guide adds notes. -/
@[simp] theorem Message.voiced_note (text : String) : (note text).Voiced := .inr rfl

/-- Clearing the screen is said by the guide too. -/
@[simp] theorem Message.voiced_wipe : Message.wipe.Voiced := .inr rfl

/-- Whether messages are said in the two voices, all of them. -/
def Spoken (messages : List Message) : Prop := ∀ message ∈ messages, message.Voiced

@[simp] theorem spoken_nil : Spoken [] := fun _ hmem => absurd hmem List.not_mem_nil

@[simp] theorem spoken_cons {message : Message} {messages : List Message} :
    Spoken (message :: messages) ↔ message.Voiced ∧ Spoken messages := List.forall_mem_cons

@[simp] theorem spoken_append {messages others : List Message} :
    Spoken (messages ++ others) ↔ Spoken messages ∧ Spoken others := List.forall_mem_append

@[simp] theorem spoken_map {items : List α} {f : α → Message} :
    Spoken (items.map f) ↔ ∀ item ∈ items, (f item).Voiced := List.forall_mem_map

theorem spoken_mapM {items : List α} {f : α → Except Fault Message}
    (h : ∀ item, Gives Message.Voiced (f item)) : Gives Spoken (items.mapM f) :=
  fun _ hlines => forall_of_mapM hlines fun item _ => h item

-- ================================================================== forms

namespace Form

variable {form : Form} {messages : List Message}

/-- Every step of a form asks in one of the two voices. -/
theorem spoken_stepPrompt (kind : Entry.Kind) (draft : Draft) (step : FormStep) :
    Gives Spoken (step.prompt kind draft) := by
  cases step with
  | rows => exact gives_bind fun _ => by simp
  | confirm => exact gives_bind fun _ => gives_bind fun _ => by simp
  | _ => simp [FormStep.prompt]

/-- What is said of an answer that is taken. -/
def saidOf : FormStep.Taking → List Message
  | .taken _ messages => messages
  | _ => []

/-- What is said of an answer to a step is spoken, whether it is taken,
rejected or calls the form off. -/
theorem spoken_take (step : FormStep) (draft : Draft) (text : String) :
    Gives (fun taking => Spoken (saidOf taking)) (step.take draft text) := by
  cases step with
  | columns =>
      unfold FormStep.take
      dsimp only
      split <;> simp [saidOf]
  | rows =>
      refine gives_bind fun width => ?_
      dsimp only
      split
      · simp [saidOf]
      · exact gives_bind fun _ => by simp [saidOf]
  | items | events => exact gives_bind fun _ => by simp [saidOf]
  | confirm =>
      unfold FormStep.take
      dsimp only
      split <;> simp [saidOf]
  | _ => simp [FormStep.take, saidOf]

/-- Mother says what was created. -/
theorem voiced_createdNote (kind : Entry.Kind) (draft : Draft) :
    Gives Message.Voiced (draft.createdNote kind) := gives_bind fun _ => by simp

/-- The guide shows the events of what was created. -/
theorem voiced_eventLine (event : Json) : Gives Message.Voiced (Draft.eventLine event) := by
  refine gives_bind fun time => ?_
  split
  · split
    · split <;> simp
    · simp
  · exact gives_bind fun _ => gives_bind fun _ => by simp

/-- What is said of a saved draft is spoken, for every kind. -/
theorem spoken_savedNotes (kind : Entry.Kind) (draft : Draft) :
    Gives Spoken (draft.savedNotes kind) := by
  cases kind with
  | table => exact (voiced_createdNote _ _).bind fun _ hnote => by simpa
  | list =>
      refine (voiced_createdNote _ _).bind fun created hcreated => gives_bind fun items => ?_
      simpa [Draft.heading]
  | timeline =>
      refine (voiced_createdNote _ _).bind fun created hcreated => gives_bind fun events => ?_
      refine (spoken_mapM voiced_eventLine).bind fun lines hlines => ?_
      simpa [Draft.heading] using ⟨hcreated, hlines⟩
  | image => simp [Draft.savedNotes]

/-- A form asks what the step that waits asks. -/
theorem spoken_prompt (form : Form) : Gives Spoken form.prompt := by
  unfold prompt
  split
  · exact spoken_stepPrompt _ _ _
  · exact gives_error

/-- A form may say something before it asks on. -/
theorem spoken_saying (form : Form) (h : Spoken messages) : Gives Spoken (form.saying messages) :=
  form.spoken_prompt.map fun _ hasked => spoken_append.mpr ⟨h, hasked⟩

/-- A form that could not be saved says why, and asks its last step again. -/
theorem spoken_park (form : Form) (h : Spoken messages) (failure : String) :
    Gives Spoken (form.park messages failure).reply :=
  spoken_saying _ (by simpa using h)

/-- A failed save is told as saved locally, as an error of the outbox, or as
one of the backend. -/
theorem spoken_saveFailed (form : Form) (h : Spoken messages) (world : World)
    (e : Backend.CallError) : Gives Spoken (form.saveFailed messages world e).1.reply := by
  unfold saveFailed
  split
  · exact gives_error
  · split
    · simpa [Turn.stop] using h
    · exact spoken_park _ (by simpa using h) _
    · exact gives_error
    · exact spoken_park _ (by simpa using h) _

/-- A save is told by what was saved or by how it failed. -/
theorem spoken_save (form : Form) (h : Spoken messages) (world : World) :
    Gives Spoken (form.save messages world).1.reply := by
  unfold save
  split
  · exact (spoken_savedNotes _ _).map fun _ hnotes => spoken_append.mpr ⟨h, hnotes⟩
  · exact spoken_saveFailed _ h _ _
  · exact gives_error
  · exact spoken_park _ (by simpa using h) _

/-- A form goes on with the next question or with its save. -/
theorem spoken_advance (form : Form) (h : Spoken messages) (world : World) :
    Gives Spoken (form.advance messages world).1.reply := by
  unfold advance
  dsimp only
  split
  · exact spoken_saying _ h
  · exact spoken_save _ h _

/-- An answer is told by the step that took it, or by what the form says
behind it. -/
theorem spoken_answerStep (form : Form) (step : FormStep) (text : String) (world : World) :
    Gives Spoken (form.answerStep step text world).1.reply := by
  unfold answerStep
  have htake := spoken_take step form.draft text
  split
  · exact gives_error
  · simp [Turn.go]
  · simp [Turn.stop]
  · next messages hmessages =>
      have hsaid : Spoken messages := htake _ hmessages
      dsimp only
      split
      · simpa [Turn.go] using hsaid
      · exact spoken_advance _ hsaid _

/-- A form answers in the two voices. -/
theorem spoken_answer (form : Form) (line : String) (world : World) :
    Gives Spoken (form.answer line world).1.reply := by
  unfold answer
  dsimp only
  split
  · simp [Turn.stop, cancelNote]
  · split
    · exact gives_error
    · split
      · split
        · simp [Turn.go]
        · exact spoken_advance _ spoken_nil _
      · split
        · exact spoken_advance _ spoken_nil _
        · exact spoken_answerStep _ _ _ _

end Form

-- ============================================================== revisions

namespace Revision

variable (revision : Revision)

theorem spoken_menuMessages (kind : Entry.Kind) : Spoken (menuMessages kind) := by
  simp [menuMessages]

/-- Numbered elements are notes. -/
theorem spoken_numbered (first : Nat) (elements : List Element) :
    Gives Spoken (numbered first elements) := by
  induction elements generalizing first with
  | nil => simp [numbered]
  | cons element elements ih => exact gives_bind fun _ => (ih _).bind fun _ hlines => by simpa

theorem spoken_listing (question : String) : Gives Spoken (revision.listing question) :=
  (spoken_numbered 1 _).bind fun _ hlines => by simpa

/-- The preview of a working copy is spoken. -/
theorem spoken_preview : Gives Spoken revision.preview := by
  have hrest : ∀ (before : List Message) (elements : Except Fault (List Message))
      (after : String → List Message), Spoken before → Gives Spoken elements →
      (∀ tags, Spoken (after tags)) → Gives Spoken (do
        let elements ← elements
        return before ++ elements ++ after (← Entry.tagsText revision.copy.tags)) :=
    fun before elements after hbefore helements hafter => helements.bind fun _ hlines =>
      gives_bind fun tags => by simpa using ⟨hbefore, hlines, hafter tags⟩
  have hnone : ∀ text, Gives Spoken (.ok [note text]) := fun text => by simp
  have hlines : ∀ heading, Gives Spoken ((numbered 1 revision.copy.elements).map (reply heading :: ·)) :=
    fun heading => (spoken_numbered 1 _).map fun _ hlines => by simpa
  unfold preview
  dsimp only
  split
  · exact gives_bind fun _ => by simp
  · split
    · have hcolumns : Gives Spoken
          (revision.columnsText.map fun text => [reply ("Columns: " ++ Entry.orNone text)]) :=
        gives_map fun _ => by simp
      refine hcolumns.bind fun columns hcolumns => ?_
      split
      · exact hrest _ _ _ (by simpa) (hnone _) (by simp)
      · exact hrest _ _ _ (by simpa) (hlines _) (by simp)
    · refine (gives_ok.mpr spoken_nil).bind fun columns hcolumns => ?_
      split
      · exact hrest _ _ _ (by simpa) (hnone _) (by simp)
      · exact hrest _ _ _ (by simpa) (hlines _) (by simp)

theorem spoken_addPrompt : Gives Spoken revision.addPrompt := by
  unfold addPrompt
  split
  · exact gives_bind fun _ => by simp
  · simp
  · simp

theorem spoken_editPrompt (index : Nat) (element : Element) :
    Gives Spoken (revision.editPrompt index element) := by
  refine gives_bind fun current => ?_
  split <;> simp

/-- Whatever a choice of the menu shows is spoken. -/
theorem spoken_shownOn (choice : Choice) : Gives Spoken (revision.shownOn choice) := by
  cases choice with
  | columns | tags => exact gives_bind fun _ => by simp
  | add => exact revision.spoken_addPrompt
  | selectEdit | selectDelete | reorder => exact revision.spoken_listing _
  | view => exact revision.spoken_preview.bind fun _ hshown => by simpa [spoken_menuMessages]
  | _ => simp [shownOn]

/-- A line that sends nothing is answered in one of the two voices. -/
theorem spoken_passed {text : String} {turn : Turn Revision} (h : Passed revision text turn) :
    Gives Spoken turn.reply := by
  cases h with
  | stays => simp [Turn.go]
  | chosen => exact spoken_shownOn _ _
  | picked => exact spoken_editPrompt _ _ _
  | taken => simp [back, Turn.go, spoken_menuMessages]

/-- The end of a revision, or the failure to save it, is spoken. -/
theorem spoken_save (world : World) : Gives Spoken (revision.save world).1.reply := by
  unfold save
  split <;> simp [Turn.done, Turn.held, Turn.go]

/-- A revision answers in the two voices. -/
theorem spoken_answer (line : String) (world : World) :
    Gives Spoken (revision.answer line world).1.reply := by
  have hanswered := revision.answer_answered line world
  generalize revision.answer line world = answered at hanswered ⊢
  cases hanswered with
  | leaves => simp [Turn.stop]
  | saves => exact revision.spoken_save world
  | passes hpassed => exact revision.spoken_passed hpassed

/-- A revision is opened in the two voices. -/
theorem spoken_start (memory : Record) : Gives (fun turn => Gives Spoken turn.reply) (start memory) := by
  intro turn h
  obtain ⟨kind, copy, heading, -, -, rfl⟩ := start_opened h
  simp [Turn.go, spoken_menuMessages]

end Revision

-- =============================================================== sessions

namespace Session

variable {session : Session} {world : World}

/-- Whether what comes of a line is said in the two voices. -/
def Speaks (outcome : Outcome) : Prop := Gives Spoken outcome.reply

theorem speaks_say {messages : List Message} (h : Spoken messages) (session : Session) (world : World) :
    Speaks (session.say messages world) := gives_ok.mpr h

theorem speaks_stopAt (session : Session) (f : Fault) (world : World) :
    Speaks (session.stopAt f world) := gives_error

/-- A failed call is told by Mother. -/
theorem speaks_troubled (session : Session) (trouble : Backend.Trouble)
    (onCall : Backend.CallError → String) (world : World) :
    Speaks (session.troubled trouble onCall world) := by
  cases trouble with
  | call e | file e => exact speaks_say (by simp) _ _
  | fault f => exact speaks_stopAt _ _ _

/-- The question before a deed is spoken. -/
theorem speaks_confirm (session : Session) (action : Pending Deed) (world : World) :
    Speaks (session.confirm action world) := by
  unfold confirm
  split
  · exact speaks_stopAt _ _ _
  · exact speaks_say (by simp) _ _

/-- A memory is told as created, as saved locally, or as failed. -/
theorem speaks_createMemory (session : Session) (content : String) (category : Option String)
    (tags : List String) (world : World) :
    Speaks (session.createMemory content category tags world) := by
  unfold createMemory
  split
  · exact speaks_say (by simp) _ _
  · dsimp only
    split
    · exact speaks_say (by simp) _ _
    · split
      · exact speaks_say (by simp) _ _
      · exact speaks_say (by simp) _ _
      · exact speaks_stopAt _ _ _
      · exact speaks_say (by simp) _ _
    · exact speaks_troubled _ _ _ _

/-- Memories that are brought up to date add nothing to what is said. -/
theorem speaks_refresh {messages : List Message} (h : Spoken messages) (session : Session)
    (memory : Record) (world : World) : Speaks (session.refresh memory messages world) :=
  gives_map fun _ => h

/-- A changed text is shown, or its failure is told. -/
theorem speaks_changeText (session : Session) (id : String) (memory : Record)
    (change : Option Change) (world : World) :
    Speaks (session.changeText id memory change world) := by
  unfold changeText
  split
  · exact speaks_say (by simp) _ _
  · split
    · exact speaks_troubled _ _ _ _
    · dsimp only
      split
      · exact speaks_say (by simp) _ _
      · exact speaks_refresh (by simp) _ _ _

/-- A memory is asked for by its id, shown as revised, or not found. -/
theorem speaks_editMemory (session : Session) (id : Option String) (change : Option Change)
    (world : World) : Speaks (session.editMemory id change world) := by
  unfold editMemory
  split
  · exact speaks_say (by simp) _ _
  · split
    · exact speaks_troubled _ _ _ _
    · dsimp only
      split
      · exact speaks_stopAt _ _ _
      · exact speaks_confirm _ _ _
      · exact speaks_changeText _ _ _ _ _

/-- A revision opens with its menu. -/
theorem speaks_openRevision (session : Session) (memory : Record) (world : World) :
    Speaks (session.openRevision memory world) := by
  unfold openRevision
  split
  · exact speaks_stopAt _ _ _
  · next turn hstart => exact Revision.spoken_start memory turn hstart

/-- A deletion asks for its confirmation or for its scope. -/
theorem speaks_delete (session : Session) (deletion : Deletion) (world : World) :
    Speaks (session.delete deletion world) := by
  unfold delete
  split
  · exact speaks_confirm _ _ _
  · exact speaks_say (by simp) _ _

/-- The number of deleted memories is told, or the failure. -/
theorem speaks_deleteMany (session : Session) (everything : Bool) (category : Option String)
    (tags : List String) (missing : String) (world : World) :
    Speaks (session.deleteMany everything category tags missing world) := by
  unfold deleteMany
  dsimp only
  split
  · exact speaks_troubled _ _ _ _
  · split
    · exact speaks_say (by simp) _ _
    · split
      · exact speaks_stopAt _ _ _
      · exact speaks_say (by simp) _ _

/-- A deleted entry is told, or the failure. -/
theorem speaks_deleteOne (session : Session) (target : Target) (id missing : String)
    (world : World) : Speaks (session.deleteOne target id missing world) := by
  unfold deleteOne
  split
  · exact speaks_troubled _ _ _ _
  · split
    · exact speaks_stopAt _ _ _
    · exact speaks_say (by simp) _ _

/-- Every deletion that was confirmed is told, or its failure. -/
theorem speaks_carryOutDelete (session : Session) (deletion : Deletion) (world : World) :
    Speaks (session.carryOutDelete deletion world) := by
  unfold carryOutDelete
  dsimp only
  split
  · exact speaks_deleteMany _ _ _ _ _ _
  · exact speaks_deleteMany _ _ _ _ _ _
  · exact speaks_deleteOne _ _ _ _ _
  · exact speaks_say (by simp) _ _

/-- What a query found is introduced by Mother. -/
theorem speaks_shownFound (session : Session) (query : Query) (searched : Bool)
    (found : Except Backend.Trouble (List Json) × World) :
    Speaks (session.shownFound query searched found) := by
  unfold shownFound
  split
  · exact speaks_troubled _ _ _ _
  · exact speaks_say (by simp) _ _
  · refine Gives.map (spoken_mapM fun memory => gives_map fun _ => by simp) fun lines hlines => ?_
    simpa using hlines

theorem speaks_openForm (session : Session) (kind : Entry.Kind) (seed : Record) (world : World) :
    Speaks (session.openForm kind seed world) := Form.spoken_prompt _

/-- Every instruction is answered in one of the two voices. -/
theorem speaks_carryOut (session : Session) (instruction : Instruction) (world : World) :
    Speaks (session.carryOut instruction world) := by
  cases instruction with
  | createMemory => exact speaks_createMemory _ _ _ _ _
  | createTable | createList | createTimeline | savePicture => exact speaks_openForm _ _ _ _
  | editMemory => exact speaks_editMemory _ _ _ _
  | delete => exact speaks_delete _ _ _
  | retrieve query =>
      show Speaks (session.retrieve query world)
      rw [retrieve_eq]
      exact speaks_shownFound _ _ _ _
  | help | clear | unknown => exact speaks_say (by simp) _ _

/-- Every line that settles a confirmation is answered in one of the two
voices. -/
theorem speaks_settle (session : Session) (line : String) (world : World) :
    Speaks (session.settle line world) := by
  unfold settle
  split
  · exact speaks_say (by simp) _ _
  · exact speaks_say (by simp) _ _
  · dsimp only
    split
    · exact speaks_carryOutDelete _ _ _
    · exact speaks_openRevision _ _ _
    · exact speaks_say (by simp) _ _

/-- Every line that is handed to a form is answered in one of the two voices. -/
theorem speaks_fillIn (session : Session) (form : Form) (line : String) (world : World) :
    Speaks (session.fillIn form line world) := by
  have hanswer := form.spoken_answer line world
  unfold fillIn
  generalize form.answer line world = answered at hanswer ⊢
  dsimp only
  split
  · split
    · exact speaks_stopAt _ _ _
    · exact hanswer
  · exact hanswer

/-- Every line that is handed to a revision is answered in one of the two
voices. -/
theorem speaks_revise (session : Session) (revision : Revision) (line : String) (world : World) :
    Speaks (session.revise revision line world) := by
  have hanswer := revision.spoken_answer line world
  unfold revise
  generalize revision.answer line world = answered at hanswer ⊢
  dsimp only
  split
  · exact speaks_stopAt _ _ _
  · exact hanswer

/-- Wherever a line goes, it is answered in the two voices. -/
theorem speaks_route (session : Session) (line : String) (world : World) :
    Speaks (session.route line world) := by
  unfold route
  split
  · exact speaks_settle _ _ _
  · exact speaks_fillIn _ _ _ _
  · exact speaks_revise _ _ _ _
  · exact speaks_carryOut _ _ _

/-- A line that is answered is put before its answers, under the name of the
user, and all answers are in the two voices. -/
theorem spoken_handle {line : String} {messages : List Message} (hne : Text.trimmed line ≠ "")
    (h : (session.handle line world).reply = .ok messages) :
    ∃ replies, messages = ⟨session.username, Text.trimmed line, .text⟩ :: replies
      ∧ Spoken replies := by
  rw [handle_eq hne] at h
  have hspeaks := speaks_route session (Text.trimmed line) world
  unfold Speaks at hspeaks
  dsimp only at h
  cases hreply : (session.route (Text.trimmed line) world).reply with
  | error f =>
      rw [hreply] at h
      cases h
  | ok replies =>
      rw [hreply] at h
      cases h
      exact ⟨replies, rfl, hspeaks _ hreply⟩

end Session
end Daybook
