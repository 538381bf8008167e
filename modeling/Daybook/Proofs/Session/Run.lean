/-
Runs of a session, and what one step of them does.

# Runs

A run is any sequence of lines and selected files.  The surroundings are
given anew at each step, so the answers of the backend, the files and the
outbox may be anything at any time.  A step that stops at a fault is a
step like any other: the run goes on with the session that it left behind.

# One step

`Turned` lists all that a step can do to the dialogue and the gate, and
`take_turned` shows that the list is complete, handler by handler.  What
holds along a run is read off the list and never off the handlers.  On the
way each handler is shown to be `Quiet`: it leaves the dialogue and the
gate alone, deletes nothing, and stops at a foreign fault at most.
-/
import Daybook.Proofs.Faults
import Daybook.Proofs.Form.Progress
import Daybook.Proofs.Instruction.Deletion

namespace Daybook

open Backend Http
open Message (reply note)

-- ============================================================ the world

/-- Queueing stops at a value from outside only. -/
theorem World.foreign_of_faulty {world after : World} {e : CallError} {kind : String}
    {payload : Option Json} {f : Fault} (h : world.queueUnreached e kind payload = .faulty f after) :
    f.isForeign = true := by
  unfold queueUnreached queue Outbox.append at h
  split at h
  · split at h
    · split at h
      · cases h
      · cases h
      · next hqueued =>
          cases h
          split at hqueued
          · cases hqueued
          · split at hqueued
            · cases hqueued
            · cases hqueued
              rfl
    · cases h
  · cases h

-- ================================================================ forms

/-- Saving a draft sends what is new, by a post. -/
theorem Draft.sends_save (site : Site) (kind : Entry.Kind) (draft : Draft) :
    Sends (·.method = .post) (draft.save site kind) := by
  by_cases hkind : kind = .image
  · subst hkind
    refine (sends_uploadImage _ _ _ _ _).bind fun uploaded => ?_
    split
    · exact sends_pure _
    · exact (sends_ofExcept _).bind fun payload => sends_createMemory payload
  · rw [save_structured site draft hkind]
    exact (sends_ofExcept _).bind fun payload => sends_createMemory payload

namespace Form

/-- So does saving a form, also when it queues the entry or parks. -/
theorem sent_save (form : Form) (messages : List Message) (world : World) :
    World.Sent (·.method = .post) world (form.save messages world).2 := by
  have hsent := World.sent_run world (form.draft.sends_save world.site form.kind)
  exact hsent.trans (.of_wire (form.wire_save messages world))

theorem sent_advance (form : Form) (messages : List Message) (world : World) :
    World.Sent (·.method = .post) world (form.advance messages world).2 := by
  unfold advance
  dsimp only
  split
  · exact .refl world
  · exact sent_save _ messages world

/-- A form makes no requests but to create memories and to upload
images. -/
theorem sent_answer (form : Form) (line : String) (world : World) :
    World.Sent (·.method = .post) world (form.answer line world).2 := by
  unfold answer
  dsimp only
  split
  · exact .refl world
  split
  · exact .refl world
  split
  · split
    · exact .refl world
    · exact sent_advance form [] world
  split
  · exact sent_advance _ [] world
  unfold answerStep
  split
  · exact .refl world
  · exact .refl world
  · exact .refl world
  · dsimp only
    split
    · exact .refl world
    · exact sent_advance _ _ world

end Form

-- ============================================================ revisions

namespace Revision

/-- Sending a revision changes what is there, by a put. -/
theorem sends_send (revision : Revision) (site : Site) :
    Sends (·.method = .put) (revision.send site) := by
  refine (sends_updateMemory _ _).bind fun _ => ?_
  dsimp only
  split
  · exact (sends_updateImage _ _).bind fun _ => sends_pure _
  · exact sends_pure _

/-- A line to a revision is sent nowhere but to change what is revised,
and it is no slip of the diary that stops it. -/
theorem answer_spec (revision : Revision) (line : String) (world : World) :
    World.Sent (·.method = .put) world (revision.answer line world).2
      ∧ Blameless (revision.answer line world).1.reply := by
  have hanswered := revision.answer_answered line world
  generalize revision.answer line world = outcome at hanswered ⊢
  cases hanswered with
  | leaves => exact ⟨.refl world, blameless_ok _⟩
  | saves =>
      obtain ⟨-, messages, hreply⟩ := revision.save_spec world
      rw [revision.world_save, hreply]
      exact ⟨World.sent_run world (revision.sends_send world.site), blameless_ok messages⟩
  | passes hpassed => exact ⟨.refl world, revision.blameless_passed hpassed⟩

end Revision

-- ================================================================= runs

namespace Session

/-- What a session is handed: a line, a line while another one is still
being handled, or the file that was selected for an image. -/
inductive Input where
  | line (text : String)
  | busy (text : String)
  | file (name : String) (image : Content) (path : Option String)

/-- Hands something to a session. -/
def take (session : Session) (input : Input) (world : World) : Outcome :=
  match input with
  | .line text => session.handle text world
  | .busy text => session.handleBusy text world
  | .file name image path => session.selectFile name image path world

/-- A step of a run: the session before it, what it is handed, and its
surroundings. -/
structure Step where
  before : Session
  input : Input
  world : World

/-- What a step comes to. -/
def Step.outcome (step : Step) : Outcome := step.before.take step.input step.world

/-- The session after a step. -/
def Step.after (step : Step) : Session := step.outcome.session

/-- What a step is after and has requested, by definition. -/
theorem Step.after_mk (session : Session) (input : Input) (world : World) :
    (Step.mk session input world).after = (session.take input world).session := rfl

/-- The requests that a step makes, in order. -/
def Step.requests (step : Step) : List Request :=
  World.requestsSince step.world step.outcome.world

theorem Step.requests_mk (session : Session) (input : Input) (world : World) :
    (Step.mk session input world).requests = World.requestsSince world (session.take input world).world := rfl

/-- Runs from the start of a session, with their steps so far. -/
inductive Run (username : String) : List Step → Session → Prop
  | start : Run username [] (Session.start username)
  | step {past : List Step} {session : Session} (h : Run username past session) (input : Input)
    (world : World) : Run username (past ++ [⟨session, input, world⟩]) (session.take input world).session

/-- Whether something was done at a step of a run, and something has held
before every step since. -/
def Since (past : List Step) (done held : Step → Prop) : Prop :=
  ∃ earlier step since, past = earlier ++ step :: since ∧ done step ∧ ∀ other ∈ since, held other

/-- Something has been done since, if the last step does it. -/
theorem since_now {done held : Step → Prop} {past : List Step} {step : Step} (h : done step) :
    Since (past ++ [step]) done held :=
  ⟨past, step, [], rfl, h, fun _ hmem => absurd hmem List.not_mem_nil⟩

/-- It has been done since, if it had been and the last step still holds to
it. -/
theorem Since.later {done held : Step → Prop} {past : List Step} (h : Since past done held)
    {step : Step} (hstep : held step) : Since (past ++ [step]) done held := by
  obtain ⟨earlier, first, since, rfl, hdone, hheld⟩ := h
  refine ⟨earlier, first, since ++ [step], ?_, hdone, fun other hmem => ?_⟩
  · rw [List.append_assoc, List.cons_append]
  · rcases List.mem_append.mp hmem with hmem | hmem
    · exact hheld other hmem
    · rw [List.mem_singleton.mp hmem]
      exact hstep

-- ======================================================= quiet handlers

/-- Whether an outcome leaves the dialogue and the gate of a session alone
and stops at a foreign fault at most. -/
structure Rests (session : Session) (outcome : Outcome) : Prop where
  flow : outcome.session.flow = session.flow
  gate : outcome.session.gate = session.gate
  reply : Blameless outcome.reply

/-- Whether it asks for no deletion either. -/
structure Quiet (session : Session) (world : World) (outcome : Outcome) : Prop
    extends Rests session outcome where
  sent : World.Sent (·.method ≠ .delete) world outcome.world

variable {session : Session} {world after : World}

/-- A session that only says something rests. -/
theorem rests_say (session : Session) (messages : List Message) (world : World) :
    Rests session (session.say messages world) := ⟨rfl, rfl, blameless_ok _⟩

theorem rests_stopAt (session : Session) {f : Fault} (h : f.isForeign = true) (world : World) :
    Rests session (session.stopAt f world) := ⟨rfl, rfl, blameless_error h⟩

theorem rests_troubled (session : Session) {trouble : Trouble}
    (h : ∀ f, trouble = .fault f → f.isForeign = true) (onCall : CallError → String)
    (world : World) : Rests session (session.troubled trouble onCall world) := by
  cases trouble with
  | call e => exact rests_say _ _ _
  | file e => exact rests_say _ _ _
  | fault f => exact rests_stopAt _ (h f rfl) _

/-- Telling a trouble changes neither the world nor the session. -/
theorem world_troubled (session : Session) (trouble : Trouble) (onCall : CallError → String)
    (world : World) : (session.troubled trouble onCall world).world = world := by
  cases trouble <;> rfl

theorem session_troubled (session : Session) (trouble : Trouble) (onCall : CallError → String)
    (world : World) : (session.troubled trouble onCall world).session = session := by
  cases trouble <;> rfl

/-- What is shown may change. -/
theorem Rests.of_visible {outcome : Outcome} {visible : List Json}
    (h : Rests { session with visible := visible } outcome) : Rests session outcome :=
  ⟨h.flow, h.gate, h.reply⟩

/-- A session is quiet if it rests and has deleted nothing. -/
theorem quiet_say (session : Session) (messages : List Message)
    (hsent : World.Sent (·.method ≠ .delete) world after) :
    Quiet session world (session.say messages after) :=
  { rests_say session messages after with sent := hsent }

theorem quiet_stopAt (session : Session) {f : Fault} (h : f.isForeign = true)
    (hsent : World.Sent (·.method ≠ .delete) world after) :
    Quiet session world (session.stopAt f after) :=
  { rests_stopAt session h after with sent := hsent }

theorem quiet_troubled (session : Session) {trouble : Trouble}
    (h : ∀ f, trouble = .fault f → f.isForeign = true) (onCall : CallError → String)
    (hsent : World.Sent (·.method ≠ .delete) world after) :
    Quiet session world (session.troubled trouble onCall after) :=
  { rests_troubled session h onCall after with
    sent := by
      rw [world_troubled]
      exact hsent }

/-- What is shown is no matter of the flow and the gate. -/
theorem Quiet.of_visible {outcome : Outcome} {visible : List Json}
    (h : Quiet { session with visible := visible } world outcome) : Quiet session world outcome :=
  ⟨h.toRests.of_visible, h.sent⟩

/-- What is known of an action that has run. -/
theorem of_run {α : Type} {action : Call α} {method : Method} {result : Except Trouble α}
    (hmethod : method ≠ .delete) (hsends : Sends (·.method = method) action)
    (hharmless : Harmless action) (hrun : world.run action = (result, after)) :
    World.Sent (·.method ≠ .delete) world after
      ∧ ∀ trouble, result = .error trouble → ∀ f, trouble = .fault f → f.isForeign = true := by
  refine ⟨?_, fun trouble htrouble f hf => ?_⟩
  · have hsent := World.sent_run world hsends
    rw [hrun] at hsent
    exact hsent.mono fun request hrequest => hrequest ▸ hmethod
  · refine hharmless world.wire f ?_
    rw [World.result_of_run hrun, htrouble, hf]

/-- Every action that is carried out at once, without a confirmation, is
quiet; this and the next ones take them one by one. -/
theorem quiet_createMemory (session : Session) (content : String) (category : Option String)
    (tags : List String) (world : World) :
    Quiet session world (session.createMemory content category tags world) := by
  unfold createMemory
  split
  · exact quiet_say _ _ (.refl world)
  dsimp only
  cases hrun : world.run (world.site.createMemory (textPayload content category tags)) with
  | mk result after =>
      obtain ⟨hsent, hfault⟩ := of_run (by decide) (sends_createMemory _)
        (harmless_createMemory _) hrun
      match result with
      | .ok created => exact (quiet_say _ _ hsent).of_visible
      | .error (.call e) =>
          dsimp only
          split
          · next hqueued =>
              exact quiet_say _ _ (hsent.trans (.of_wire (World.wire_of_queued hqueued)))
          · exact quiet_say _ _ hsent
          · next hfaulty =>
              exact quiet_stopAt _ (World.foreign_of_faulty hfaulty)
                (hsent.trans (.of_wire (World.wire_of_faulty hfaulty)))
          · exact quiet_say _ _ hsent
      | .error (.file e) => exact quiet_troubled _ (hfault _ rfl) _ hsent
      | .error (.fault f) => exact quiet_troubled _ (hfault _ rfl) _ hsent

theorem quiet_refresh (session : Session) (memory : Record) (messages : List Message)
    (hsent : World.Sent (·.method ≠ .delete) world after) :
    Quiet session world (session.refresh memory messages after) :=
  ⟨⟨rfl, rfl, (blameless_replaceVisible memory session.visible).map _⟩, hsent⟩

theorem quiet_changeText (session : Session) (id : String) (memory : Record)
    (change : Option Change) (hbefore : World.Sent (·.method ≠ .delete) world after) :
    Quiet session world (session.changeText id memory change after) := by
  unfold changeText
  split
  · exact quiet_say _ _ hbefore
  · next change =>
      cases hrun : after.run (after.site.updateMemory id (changeFields change)) with
      | mk result last =>
          obtain ⟨hsent, hfault⟩ := of_run (by decide) (sends_updateMemory _ _) stops_call hrun
          have hall := hbefore.trans hsent
          cases result with
          | error trouble => exact quiet_troubled _ (hfault _ rfl) _ hall
          | ok content =>
              cases change with
              | append text => exact quiet_say _ _ hall
              | replace text => exact quiet_refresh _ _ _ hall

/-- What becomes of what was found, whichever way it was asked for. -/
def shownFound (session : Session) (query : Query) (searched : Bool) :
    Except Trouble (List Json) × World → Outcome
  | (.error trouble, world) => session.troubled trouble errorText world
  | (.ok [], world) =>
    session.say [reply (if searched then "No memories found matching your search."
      else "No memories found with those filters.")] world
  | (.ok found, world) =>
    let lines := found.mapM fun memory =>
      (Entry.summary memory).map fun text => note ("  " ++ text)
    ⟨lines.map (reply (foundText query found.length) :: ·), { session with visible := found }, world⟩

/-- Memories are searched if the query has a text, and else listed. -/
theorem retrieve_eq (session : Session) (query : Query) (world : World) :
    session.retrieve query world
      = session.shownFound query query.search.isSome (world.run
        (query.search.elim (world.site.memories (queryParams query))
          fun text => world.site.searchMemories text (queryParams query))) := by
  unfold retrieve
  cases query.search <;> rfl

theorem quiet_shownFound (session : Session) (query : Query) (searched : Bool)
    {result : Except Trouble (List Json)} {world after : World}
    (hsent : World.Sent (·.method ≠ .delete) world after)
    (hfault : ∀ trouble, result = .error trouble → ∀ f, trouble = .fault f → f.isForeign = true) :
    Quiet session world (session.shownFound query searched (result, after)) := by
  cases result with
  | error trouble => exact quiet_troubled _ (hfault _ rfl) _ hsent
  | ok found =>
      cases found with
      | nil => exact quiet_say _ _ hsent
      | cons memory found =>
          have hlines := Blameless.mapM
            (fun memory => (Entry.blameless_summary memory).map fun text => note ("  " ++ text))
            (memory :: found)
          exact ⟨⟨rfl, rfl, hlines.map _⟩, hsent⟩

theorem quiet_retrieve (session : Session) (query : Query) (world : World) :
    Quiet session world (session.retrieve query world) := by
  rw [retrieve_eq]
  cases query.search with
  | some text =>
      dsimp only [Option.elim]
      cases hrun : world.run (world.site.searchMemories text (queryParams query)) with
      | mk result after =>
          obtain ⟨hsent, hfault⟩ := of_run (by decide) (sends_searchMemories _ _)
            (harmless_searchMemories _ _) hrun
          exact quiet_shownFound session query _ hsent hfault
  | none =>
      dsimp only [Option.elim]
      cases hrun : world.run (world.site.memories (queryParams query)) with
      | mk result after =>
          obtain ⟨hsent, hfault⟩ := of_run (by decide) (sends_memories _) (harmless_memories _) hrun
          exact quiet_shownFound session query _ hsent hfault

/-- The actions that delete rest, but they are not quiet. -/
theorem rests_deleteMany (session : Session) (everything : Bool) (category : Option String)
    (tags : List String) (missing : String) (world : World) :
    Rests session (session.deleteMany everything category tags missing world) := by
  have hharmless := harmless_deleteMemories world.site everything (.ofOption category)
    (.strings tags) world.wire
  unfold deleteMany
  dsimp only
  cases hrun : world.run
      (world.site.deleteMemories everything (.ofOption category) (.strings tags)) with
  | mk result after =>
      cases result with
      | error trouble =>
          refine rests_troubled _ (fun f hf => hharmless f ?_) _ _
          rw [World.result_of_run hrun, hf]
      | ok count =>
          dsimp only
          split
          · exact (rests_say _ _ _).of_visible
          · split
            · next f hf =>
                exact rests_stopAt _
                  (blameless_dropWhere (blameless_isMatch category tags) _ f hf) _
            · exact (rests_say _ _ _).of_visible

theorem rests_deleteOne (session : Session) (target : Target) (id missing : String)
    (world : World) : Rests session (session.deleteOne target id missing world) := by
  have hharmless := harmless_deleteEntry world.site target id session.visible world.wire
  unfold deleteOne
  cases hrun : world.run (deleteEntry world.site target id session.visible) with
  | mk result after =>
      cases result with
      | error trouble =>
          refine rests_troubled _ (fun f hf => hharmless f ?_) _ _
          rw [World.result_of_run hrun, hf]
      | ok done =>
          dsimp only
          split
          · next f hf =>
              exact rests_stopAt _ (blameless_dropWhere (blameless_isDeleted id) _ f hf) _
          · exact (rests_say _ _ _).of_visible

theorem rests_carryOutDelete (session : Session) (deletion : Deletion) (world : World) :
    Rests session (session.carryOutDelete deletion world) := by
  unfold carryOutDelete
  dsimp only
  split
  · exact rests_deleteMany _ _ _ _ _ _
  · exact rests_deleteMany _ _ _ _ _ _
  · exact rests_deleteOne _ _ _ _ _
  · exact rests_say _ _ _

-- ============================================================= one step

/-- What a line asks a confirmation for: a deletion that reaches something,
or the edit of a memory whose type names a kind of entry. -/
inductive Asked (line : String) : Pending Deed → Prop
  | delete {deletion : Deletion} {scope : Scope} (hread : Instruction.read line = .delete deletion)
    (hscope : deletion.scope? = some scope) :
    Asked line ⟨"delete", .delete deletion, scope.question⟩
  | edit {memory : Record} {kind : Entry.Kind} (prompt : String)
    (htype : Record.get memory "type" = .ofText kind.name) :
    Asked line ⟨"edit", .edit memory, prompt⟩

/-- The invariant of a session: the gate holds an action just while a
confirmation goes on, the action was asked for by a line, and a form that
is open is one that can be met. -/
structure Coherent (session : Session) : Prop where
  armed : session.gate.armed = true ↔ session.flow = .confirming
  waiting : ∀ action, session.gate.pending = some action → ∃ line, Asked line action
  form : ∀ form, session.flow = .building form → form.Reachable

/-- What a step can do to the dialogue and the gate. -/
inductive Turned (session : Session) (input : Input) (world : World) (after : Session) : Prop
  | rests (hflow : after.flow = session.flow) (hgate : after.gate = session.gate)
  | asks {text : String} {action : Pending Deed} (hinput : input = .line text)
    (hidle : session.flow = .idle) (hasked : Asked (Text.trimmed text) action)
    (hflow : after.flow = .confirming) (hgate : after.gate = ⟨some action⟩)
  | settles (hconfirming : session.flow = .confirming)
    (hflow : after.flow = .idle ∨ ∃ revision, after.flow = .editing revision)
    (hgate : after.gate = .empty)
  | opens {form : Form} (hidle : session.flow = .idle) (hform : form.Reachable)
    (himage : form.draft.image = none) (hflow : after.flow = .building form)
    (hgate : after.gate = session.gate)
  | fills {form : Form} {line : String} {turn : Turn Form}
    (hbuilding : session.flow = .building form) (hturn : (form.answer line world).1 = turn)
    (hgo : turn.ended = false) (hflow : after.flow = .building turn.state)
    (hgate : after.gate = session.gate)
  | delivers {form : Form} {name : String} {image : Content} {path : Option String}
    (hinput : input = .file name image path) (hbuilding : session.flow = .building form)
    (hawaits : session.awaitsFile = true)
    (hflow : after.flow = .building (form.deliver name image path).state)
    (hgate : after.gate = session.gate)
  | leaves (hopen : (∃ form, session.flow = .building form)
      ∨ ∃ revision, session.flow = .editing revision)
    (hflow : after.flow = .idle ∨ ∃ revision, after.flow = .editing revision)
    (hgate : after.gate = session.gate)

/-- Whether a step carries out a deletion that waits for a confirmation,
and the gate is empty from then on. -/
structure Deletes (session : Session) (input : Input) (world : World) (outcome : Outcome)
    (deletion : Deletion) : Prop where
  line : ∃ text, input = .line text ∧ Gate.decisionOf (Text.trimmed text) = .yes
  waiting : ∃ kind prompt, session.gate.pending = some ⟨kind, .delete deletion, prompt⟩
  gate : outcome.session.gate = .empty
  world : outcome.world
    = ({ session with gate := .empty, flow := .idle }.carryOutDelete deletion world).world

/-- What is known of every step: what it does to the dialogue and the gate,
that no slip stops it, and that it deletes nothing or carries out the
deletion that waits. -/
structure Stepped (session : Session) (input : Input) (world : World) (outcome : Outcome) :
    Prop where
  turned : Turned session input world outcome.session
  reply : Blameless outcome.reply
  sent : World.Sent (·.method ≠ .delete) world outcome.world
    ∨ ∃ deletion, Deletes session input world outcome deletion

variable {input : Input}

/-- What is quiet is a step, for any input. -/
theorem Quiet.stepped {outcome : Outcome} (h : Quiet session world outcome) :
    Stepped session input world outcome := ⟨.rests h.flow h.gate, h.reply, .inl h.sent⟩

/-- A line that says something goes to its place. -/
theorem handle_eq {line : String} (hne : Text.trimmed line ≠ "") :
    session.handle line world
      = let outcome := session.route (Text.trimmed line) world
        { outcome with
          reply := outcome.reply.map (⟨session.username, Text.trimmed line, .text⟩ :: ·) } := by
  unfold handle
  dsimp only
  rw [if_neg hne]

/-- Without a dialogue, a line that is read as an instruction is carried
out. -/
theorem handle_read (hidle : session.flow = .idle) {line : String} {instruction : Instruction}
    (hread : Instruction.read (Text.trimmed line) = instruction)
    (hknown : ∀ text, instruction ≠ .unknown text) :
    session.handle line world
      = let outcome := session.carryOut instruction world
        { outcome with
          reply := outcome.reply.map (⟨session.username, Text.trimmed line, .text⟩ :: ·) } := by
  have hne : Text.trimmed line ≠ "" := by
    intro hempty
    rw [hempty] at hread
    exact hknown "" hread.symm
  have hroute : session.route (Text.trimmed line) world = session.carryOut instruction world := by
    unfold route
    rw [hidle]
    dsimp only
    rw [hread]
  rw [handle_eq hne, hroute]

/-- With nothing waiting, an action can wait. -/
theorem confirm_eq {session : Session} (h : session.gate.pending = none)
    (action : Pending Deed) (world : World) :
    session.confirm action world
      = { session with gate := ⟨some action⟩, flow := .confirming }.say [reply action.prompt]
          world := by
  unfold confirm Gate.request
  rw [h]

/-- A memory waits for a confirmation only while the session asks for one. -/
theorem Coherent.pending_eq_none (h : session.Coherent) (hflow : session.flow ≠ .confirming) :
    session.gate.pending = none := by
  cases hpending : session.gate.pending with
  | none => rfl
  | some action =>
      refine absurd (h.armed.mp ?_) hflow
      unfold Gate.armed
      rw [hpending]
      rfl

/-- Asking for a confirmation. -/
theorem stepped_confirm (h : session.Coherent) (hidle : session.flow = .idle) {text : String}
    {action : Pending Deed} (hasked : Asked (Text.trimmed text) action)
    (hsent : World.Sent (·.method ≠ .delete) world after) :
    Stepped session (.line text) world (session.confirm action after) := by
  have hpending := h.pending_eq_none (by rw [hidle]; exact Flow.noConfusion)
  rw [confirm_eq hpending]
  exact ⟨.asks rfl hidle hasked rfl rfl, blameless_ok _, .inl hsent⟩

/-- A type that has a form of its own names its kind. -/
theorem type_of_isStructured {memory : Record}
    (h : isStructured ((Record.get memory "type").orElse (.str "text")) = .ok true) :
    ∃ kind : Entry.Kind, Record.get memory "type" = .ofText kind.name := by
  have htext : isStructured (.str "text") ≠ .ok true := by
    intro h
    exact absurd (Except.ok.inj h) (by decide)
  unfold Json.orElse at h
  split at h
  · exact absurd h htext
  · unfold isStructured at h
    split at h
    · next name htype =>
        obtain ⟨kind, hkind⟩ := Option.isSome_iff_exists.mp (Except.ok.inj h)
        refine ⟨kind, ?_⟩
        rw [htype, Entry.Kind.name_of_ofName? hkind]
    · cases h
    · cases h
    · cases h

/-- The inputs, one by one: what each comes to is a step. -/
theorem stepped_editMemory (h : session.Coherent) (hidle : session.flow = .idle) (text : String)
    (id : Option String) (change : Option Change) (world : World) :
    Stepped session (.line text) world (session.editMemory id change world) := by
  unfold editMemory
  split
  · exact (quiet_say _ _ (.refl world)).stepped
  · next id =>
      cases hrun : world.run (world.site.memory id) with
      | mk result after =>
          obtain ⟨hsent, hfault⟩ := of_run (by decide) (sends_memory id) (harmless_memory id) hrun
          cases result with
          | error trouble => exact (quiet_troubled _ (hfault _ rfl) _ hsent).stepped
          | ok memory =>
              dsimp only
              split
              · next f hf => exact (quiet_stopAt _ (blameless_isStructured _ f hf) hsent).stepped
              · next htype =>
                  obtain ⟨kind, hkind⟩ := type_of_isStructured htype
                  exact stepped_confirm h hidle (.edit _ hkind) hsent
              · exact (quiet_changeText _ id memory change hsent).stepped

theorem stepped_openForm (hidle : session.flow = .idle) {kind : Entry.Kind} {seed : Record}
    (hform : (Form.start kind seed).Reachable) :
    Stepped session input world (session.openForm kind seed world) := by
  have hsound := Form.sound_of_reachable hform
  obtain ⟨step, hmem, hstep⟩ := Form.mem_of_index hsound.index
  obtain ⟨asked, hasked⟩ := Draft.prompt_ok hsound.draft hmem
  refine ⟨.opens hidle hform rfl rfl rfl, ?_, .inl (.refl world)⟩
  show Blameless (Form.start kind seed).prompt
  unfold Form.prompt Form.step?
  rw [hstep]
  show Blameless (step.prompt _ _)
  rw [hasked]
  exact blameless_ok asked

theorem stepped_carryOut (h : session.Coherent) (hidle : session.flow = .idle) (text : String)
    (world : World) :
    Stepped session (.line text) world
      (session.carryOut (Instruction.read (Text.trimmed text)) world) := by
  cases hread : Instruction.read (Text.trimmed text) with
  | createMemory content category tags => exact (quiet_createMemory _ _ _ _ _).stepped
  | createTable columns rows => exact stepped_openForm hidle (.start .table)
  | createList items => exact stepped_openForm hidle (.start .list)
  | createTimeline events => exact stepped_openForm hidle (.start .timeline)
  | savePicture description tags =>
      exact stepped_openForm hidle (.picture .image description tags)
  | editMemory id change => exact stepped_editMemory h hidle text id change world
  | delete deletion =>
      unfold carryOut delete
      dsimp only
      split
      · next scope hscope => exact stepped_confirm h hidle (.delete hread hscope) (.refl world)
      · exact (quiet_say _ _ (.refl world)).stepped
  | retrieve query => exact (quiet_retrieve _ _ _).stepped
  | help => exact (quiet_say _ _ (.refl world)).stepped
  | clear => exact (quiet_say _ _ (.refl world)).of_visible.stepped
  | unknown line => exact (quiet_say _ _ (.refl world)).stepped

/-- Answering a confirmation.  Whatever follows a yes, the gate has been
emptied before. -/
theorem stepped_settle (h : session.Coherent) (hconfirming : session.flow = .confirming)
    (text : String) (world : World) :
    Stepped session (.line text) world (session.settle (Text.trimmed text) world) := by
  have harmed := h.armed.mpr hconfirming
  unfold Gate.armed at harmed
  obtain ⟨action, haction⟩ := Option.isSome_iff_exists.mp harmed
  unfold settle Gate.resolve
  rw [haction]
  dsimp only
  cases hdecision : Gate.decisionOf (Text.trimmed text) with
  | none => exact (quiet_say _ _ (.refl world)).stepped
  | no => exact ⟨.settles hconfirming (.inl rfl) rfl, blameless_ok _, .inl (.refl world)⟩
  | yes =>
      obtain ⟨line, hasked⟩ := h.waiting action haction
      cases hasked with
      | @delete deletion _ _ _ =>
          have hrests :=
            rests_carryOutDelete { session with gate := .empty, flow := .idle } deletion world
          exact ⟨.settles hconfirming (.inl hrests.flow) hrests.gate, hrests.reply,
            .inr ⟨_, ⟨text, rfl, hdecision⟩, ⟨_, _, haction⟩, hrests.gate, rfl⟩⟩
      | edit prompt htype =>
          obtain ⟨hstart, hopened⟩ := Revision.blameless_start htype
          dsimp only [Option.map_some]
          unfold openRevision
          split
          · next f hf =>
              exact ⟨.settles hconfirming (.inl rfl) rfl, blameless_error (hstart f hf),
                .inl (.refl world)⟩
          · next turn hturn =>
              exact ⟨.settles hconfirming (.inr ⟨turn.state, rfl⟩) rfl, hopened turn hturn,
                .inl (.refl world)⟩

theorem world_fillIn (session : Session) (form : Form) (line : String) (world : World) :
    (session.fillIn form line world).world = (form.answer line world).2 := by
  unfold fillIn
  generalize form.answer line world = answered
  dsimp only
  split
  · split <;> rfl
  · rfl

/-- A form that has ended leaves the session idle. -/
theorem flow_fillIn_over {form : Form} {line : String} (h : (form.answer line world).1.ended = true) :
    (session.fillIn form line world).session.flow = .idle := by
  unfold fillIn
  dsimp only
  rw [if_pos h]
  split
  · rfl
  · rfl

theorem stepped_fillIn (h : session.Coherent) {form : Form} (hform : session.flow = .building form)
    (line : String) (world : World) :
    Stepped session input world (session.fillIn form line world) := by
  have hsent : World.Sent (·.method ≠ .delete) world (form.answer line world).2 :=
    (form.sent_answer line world).mono fun request hrequest => by
      rw [hrequest]
      decide
  obtain ⟨step, -, hanswers⟩ :=
    Form.answer_spec (Form.sound_of_reachable (h.form form hform)) line world
  have hreply : Blameless (form.answer line world).1.reply := by
    obtain ⟨messages, hreply⟩ := hanswers.reply
    rw [hreply]
    exact blameless_ok messages
  unfold fillIn
  cases hanswer : form.answer line world with
  | mk turn after =>
      rw [hanswer] at hsent hreply
      dsimp only at hsent hreply ⊢
      split
      · split
        · next f hf =>
            exact ⟨.leaves (.inl ⟨form, hform⟩) (.inl rfl) rfl,
              blameless_error (blameless_dropWhere blameless_isPreview _ f hf), .inl hsent⟩
        · exact ⟨.leaves (.inl ⟨form, hform⟩) (.inl rfl) rfl, hreply, .inl hsent⟩
      · next hgo =>
          exact ⟨.fills hform (congrArg Prod.fst hanswer) (Bool.eq_false_iff.mpr hgo) rfl rfl,
            hreply, .inl hsent⟩

theorem stepped_revise {revision : Revision} (hrevision : session.flow = .editing revision)
    (line : String) (world : World) :
    Stepped session input world (session.revise revision line world) := by
  obtain ⟨hput, hreply⟩ := revision.answer_spec line world
  have hsent : World.Sent (·.method ≠ .delete) world (revision.answer line world).2 :=
    hput.mono fun request hrequest => by
      rw [hrequest]
      decide
  have hopen : (∃ form, session.flow = .building form)
      ∨ ∃ revision, session.flow = .editing revision := .inr ⟨revision, hrevision⟩
  unfold revise
  cases hanswer : revision.answer line world with
  | mk turn after =>
      rw [hanswer] at hsent hreply
      dsimp only at hsent hreply ⊢
      have hshown : Blameless (if turn.completed then
          replaceVisible turn.state.revised session.visible else (session.visible, .ok ())).2 := by
        split
        · exact blameless_replaceVisible _ _
        · exact blameless_ok ()
      split
      · next f hf =>
          exact ⟨.leaves hopen (.inr ⟨_, rfl⟩) rfl, blameless_error (hshown f hf), .inl hsent⟩
      · split
        · exact ⟨.leaves hopen (.inl rfl) rfl, hreply, .inl hsent⟩
        · exact ⟨.leaves hopen (.inr ⟨_, rfl⟩) rfl, hreply, .inl hsent⟩

theorem stepped_selectFile (h : session.Coherent) (name : String) (image : Content)
    (path : Option String) (world : World) :
    Stepped session (.file name image path) world (session.selectFile name image path world) := by
  unfold selectFile
  split
  · next form hform =>
      split
      · next hawaits =>
          obtain ⟨-, messages, hreply⟩ :=
            Form.deliver_spec (Form.sound_of_reachable (h.form form hform)) name image path
          dsimp only
          rw [hreply]
          exact ⟨.delivers rfl hform hawaits rfl rfl, blameless_ok messages, .inl (.refl world)⟩
      · exact (quiet_say _ _ (.refl world)).stepped
  · exact (quiet_say _ _ (.refl world)).stepped

theorem stepped_route (h : session.Coherent) (text : String) (world : World) :
    Stepped session (.line text) world (session.route (Text.trimmed text) world) := by
  unfold route
  cases hflow : session.flow with
  | confirming => exact stepped_settle h hflow text world
  | building form => exact stepped_fillIn h hflow _ world
  | editing revision => exact stepped_revise hflow _ world
  | idle => exact stepped_carryOut h hflow text world

/-- What is known of every step of a coherent session. -/
theorem take_spec (h : session.Coherent) (input : Input) (world : World) :
    Stepped session input world (session.take input world) := by
  cases input with
  | line text =>
      unfold take handle
      dsimp only
      split
      · exact (quiet_say _ _ (.refl world)).stepped
      · obtain ⟨hturned, hreply, hsent⟩ := stepped_route h text world
        refine ⟨hturned, hreply.map _, hsent.imp_right ?_⟩
        rintro ⟨deletion, hdeletes⟩
        exact ⟨deletion, hdeletes.line, hdeletes.waiting, hdeletes.gate, hdeletes.world⟩
  | busy text =>
      unfold take handleBusy
      dsimp only
      split
      · exact (quiet_say _ _ (.refl world)).stepped
      · exact (quiet_say _ _ (.refl world)).stepped
  | file name image path => exact stepped_selectFile h name image path world

-- ============================================================ invariant

/-- Behind a dialogue there is no form. -/
theorem not_building {flow : Flow} {form : Form}
    (h : flow = .idle ∨ ∃ revision, flow = .editing revision) : flow ≠ .building form := by
  rcases h with rfl | ⟨revision, rfl⟩
  · exact Flow.noConfusion
  · exact Flow.noConfusion

/-- With the gate empty, only the form that is open has to be one that can
be met. -/
theorem coherent_of_empty (hgate : session.gate.pending = none)
    (hflow : session.flow ≠ .confirming)
    (hform : ∀ form, session.flow = .building form → form.Reachable) : session.Coherent := by
  refine ⟨⟨fun harmed => ?_, fun hconfirming => absurd hconfirming hflow⟩, fun action haction => ?_,
    hform⟩
  · unfold Gate.armed at harmed
    rw [hgate] at harmed
    cases harmed
  · rw [hgate] at haction
    cases haction

/-- A session is coherent when it starts. -/
theorem coherent_start (username : String) : (Session.start username).Coherent :=
  coherent_of_empty rfl Flow.noConfusion fun _ hform => Flow.noConfusion hform

/-- A turn leaves a coherent session coherent. -/
theorem Turned.coherent {after : Session} (hturned : Turned session input world after)
    (h : session.Coherent) : after.Coherent := by
  -- with an empty gate, only a form has more to show: that it can be met
  have hidle : after.flow = .idle ∨ (∃ revision, after.flow = .editing revision) →
      after.gate.pending = none → after.Coherent := by
    intro hflow hgate
    refine coherent_of_empty hgate ?_ fun form hform => absurd hform (not_building hflow)
    rcases hflow with hflow | ⟨revision, hflow⟩
    · rw [hflow]
      exact Flow.noConfusion
    · rw [hflow]
      exact Flow.noConfusion
  have hbuilding : ∀ form, after.flow = .building form → form.Reachable →
      after.gate.pending = none → after.Coherent := by
    intro form hflow hform hgate
    refine coherent_of_empty hgate (by rw [hflow]; exact Flow.noConfusion) fun other hother => ?_
    rw [hflow] at hother
    cases hother
    exact hform
  cases hturned with
  | rests hflow hgate =>
      refine ⟨?_, ?_, ?_⟩
      · rw [hflow, hgate]
        exact h.armed
      · rw [hgate]
        exact h.waiting
      · rw [hflow]
        exact h.form
  | asks hinput hflow hasked hafter hgate =>
      refine ⟨?_, fun other hother => ?_, fun form hform => ?_⟩
      · rw [hafter, hgate]
        exact ⟨fun _ => rfl, fun _ => rfl⟩
      · rw [hgate] at hother
        cases hother
        exact ⟨_, hasked⟩
      · rw [hafter] at hform
        cases hform
  | settles hconfirming hflow hgate => exact hidle hflow (by rw [hgate]; rfl)
  | opens hflow hform himage hafter hgate =>
      refine hbuilding _ hafter hform ?_
      rw [hgate]
      exact h.pending_eq_none (by rw [hflow]; exact Flow.noConfusion)
  | fills hflow hturn hgo hafter hgate =>
      refine hbuilding _ hafter ?_ ?_
      · subst hturn
        exact (h.form _ hflow).answer _ _ hgo
      · rw [hgate]
        exact h.pending_eq_none (by rw [hflow]; exact Flow.noConfusion)
  | delivers hinput hflow hawaits hafter hgate =>
      refine hbuilding _ hafter ((h.form _ hflow).deliver _ _ _) ?_
      rw [hgate]
      exact h.pending_eq_none (by rw [hflow]; exact Flow.noConfusion)
  | leaves hopen hflow hgate =>
      refine hidle hflow ?_
      rw [hgate]
      refine h.pending_eq_none ?_
      rcases hopen with ⟨form, hopen⟩ | ⟨revision, hopen⟩
      · rw [hopen]
        exact Flow.noConfusion
      · rw [hopen]
        exact Flow.noConfusion

/-- A step leaves the gate alone, empties it, or arms it with what its line
asks for. -/
theorem Turned.gate {after : Session} (h : Turned session input world after) :
    after.gate = session.gate ∨ after.gate = .empty
      ∨ ∃ text action, input = .line text ∧ session.flow = .idle
        ∧ Asked (Text.trimmed text) action ∧ after.gate = ⟨some action⟩ := by
  cases h with
  | settles _ _ hgate => exact .inr (.inl hgate)
  | asks hinput hidle hasked _ hgate => exact .inr (.inr ⟨_, _, hinput, hidle, hasked, hgate⟩)
  | rests _ hgate => exact .inl hgate
  | opens _ _ _ _ hgate => exact .inl hgate
  | fills _ _ _ _ hgate => exact .inl hgate
  | delivers _ _ _ _ hgate => exact .inl hgate
  | leaves _ _ hgate => exact .inl hgate

/-- The invariant holds along every run, also behind a step that stopped at
a fault. -/
theorem coherent_of_run {username : String} {past : List Step} (h : Run username past session) :
    session.Coherent := by
  induction h with
  | start => exact coherent_start username
  | step _ input world ih => exact (take_spec ih input world).turned.coherent ih

end Session

end Daybook
