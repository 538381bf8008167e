/-
What a failed call leaves of a session.

A handler may make two requests, and it may change the session before them,
between them or behind them.  If the last request of a step fails, the
session is as it was all the same, up to the dialogue that is over
(`failed_call_spares`).

`Spares` says this of a handler that is met while no dialogue goes on: in
case its last request failed, the session is the one it was given.  It is
read off the order in which the handler does things, once for each of them.
A revision and a form have laws of their own (`answer_last`), since there a
failure decides where the dialogue goes on.
-/
import Daybook.Proofs.LastAnswer
import Daybook.Proofs.Session.Fresh

namespace Daybook

open Backend Http
open Text (trimmed)

-- ============================================================= dialogues

/-- A revision stays where it is if the last request for it failed; it was
being saved. -/
theorem Revision.answer_last (revision : Revision) (line : String) (world : World) :
    ∃ requests, (revision.answer line world).2.wire = world.wire.sendAll requests
      ∧ (LastFailed world.site world.wire requests →
        revision.place = .menu ∧ (revision.answer line world).1.state = revision
          ∧ (revision.answer line world).1.ended = false
          ∧ (revision.answer line world).1.completed = false) := by
  have hanswered := revision.answer_answered line world
  generalize revision.answer line world = outcome at hanswered ⊢
  cases hanswered with
  | leaves => exact ⟨[], rfl, fun hfailed => absurd hfailed not_lastFailed_nil⟩
  | passes => exact ⟨[], rfl, fun hfailed => absurd hfailed not_lastFailed_nil⟩
  | saves hplace =>
      obtain ⟨requests, hwire, hfails⟩ := (revision.direct_send world.site).heeds world.wire
      refine ⟨requests, ?_, fun hfailed => ?_⟩
      · rw [revision.world_save]
        exact hwire
      · obtain ⟨trouble, htrouble⟩ := hfails hfailed
        obtain ⟨hended, hcompleted⟩ := revision.save_over world
        rw [htrouble] at hended hcompleted
        exact ⟨hplace, (revision.save_spec world).1, hended, hcompleted⟩

/-- A form queues its entry or goes on if the last request for it failed. -/
theorem Form.answer_last {form : Form} (h : form.Sound) {line : String} {world : World}
    (hfailed : LastFailed world.site world.wire (world.requestsSince (form.answer line world).2)) :
    ∃ step, form.step? = some step ∧ (form.answer line world).1.state.kind = form.kind
      ∧ step.Answered form.draft (form.answer line world).1.state.draft
      ∧ (Queued world (form.answer line world).1 (form.answer line world).2
        ∨ Kept world (form.answer line world).1 (form.answer line world).2) := by
  obtain ⟨step, hstep, hanswers⟩ := answer_spec h line world
  generalize form.answer line world = outcome at hfailed hanswers ⊢
  obtain ⟨turn, after⟩ := outcome
  dsimp only at hfailed hanswers ⊢
  refine ⟨step, hstep, hanswers.kind, hanswers.moves.answered, ?_⟩
  rcases hanswers.outcome with hleft | hsaved | hopen
  · have hnone : after.wire = world.wire.sendAll [] := congrArg World.wire hleft.world
    rw [World.requestsSince_of_wire hnone] at hfailed
    exact absurd hfailed not_lastFailed_nil
  · obtain ⟨requests, -, rfl, hall⟩ := hsaved.exchange
    rw [World.requestsSince_of_wire rfl] at hfailed
    obtain ⟨n, e, hlength, hlast⟩ := hfailed
    obtain ⟨content, hcontent⟩ := hall n (by omega)
    rw [hlast] at hcontent
    cases hcontent
  · exact hopen

namespace Session

variable {session : Session} {world after : World} {outcome : Outcome} {α : Type}
  {action : Call α} {result : Except Trouble α}

-- ============================================================== handlers

/-- Whether an outcome leaves a session alone in case the last request on
the way to it failed. -/
def Spares (session : Session) (world : World) (outcome : Outcome) : Prop :=
  ∃ requests, outcome.world.wire = world.wire.sendAll requests
    ∧ (LastFailed world.site world.wire requests → outcome.session = session)

theorem Spares.session_eq (h : Spares session world outcome)
    (hfailed : LastFailed world.site world.wire (world.requestsSince outcome.world)) :
    outcome.session = session := by
  obtain ⟨requests, hwire, hspares⟩ := h
  rw [World.requestsSince_of_wire hwire] at hfailed
  exact hspares hfailed

/-- Without a request there is none that fails. -/
theorem spares_silent (h : outcome.world.wire = world.wire) : Spares session world outcome :=
  ⟨[], h, fun hfailed => absurd hfailed not_lastFailed_nil⟩

/-- A handler that acts once may change the session if the action has
succeeded. -/
theorem spares_run (hheeds : Heeds world.site action) (hrun : world.run action = (result, after))
    (hwire : outcome.world.wire = after.wire)
    (hsession : ∀ trouble, result = .error trouble → outcome.session = session) :
    Spares session world outcome := by
  obtain ⟨requests, rfl, hfails⟩ := World.heeded_of_run hheeds hrun
  refine ⟨requests, hwire, fun hfailed => ?_⟩
  obtain ⟨trouble, htrouble⟩ := hfails hfailed
  exact hsession trouble htrouble

theorem spares_troubled {trouble : Trouble} (hheeds : Heeds world.site action)
    (hrun : world.run action = (.error trouble, after)) (onCall : CallError → String) :
    Spares session world (session.troubled trouble onCall after) :=
  spares_run hheeds hrun (by rw [world_troubled]) fun _ _ => session_troubled _ _ _ _

/-- A handler may act again once an action has succeeded. -/
theorem Spares.behind {a : α} (h : Spares session after outcome) (hheeds : Heeds world.site action)
    (hrun : world.run action = (.ok a, after)) : Spares session world outcome := by
  obtain ⟨first, rfl, hfails⟩ := World.heeded_of_run hheeds hrun
  obtain ⟨second, hwire, hspares⟩ := h
  refine ⟨first ++ second, ?_, fun hfailed => ?_⟩
  · rw [hwire, Wire.sendAll_append]
  by_cases hnone : second = []
  · rw [hnone, List.append_nil] at hfailed
    obtain ⟨trouble, htrouble⟩ := hfails hfailed
    cases htrouble
  · exact hspares (lastFailed_rest hnone hfailed)

theorem spares_createMemory (session : Session) (content : String) (category : Option String)
    (tags : List String) (world : World) :
    Spares session world (session.createMemory content category tags world) := by
  unfold createMemory
  split
  · exact spares_silent rfl
  dsimp only
  have hheeds : Heeds world.site (world.site.createMemory (textPayload content category tags)) :=
    heeds_createMemory _
  cases hrun : world.run (world.site.createMemory (textPayload content category tags)) with
  | mk result after =>
      match result with
      | .ok created => exact spares_run hheeds hrun rfl fun _ hresult => nomatch hresult
      | .error (.call e) =>
          dsimp only
          split
          · next hqueued =>
              exact spares_run hheeds hrun (World.wire_of_queued hqueued) fun _ _ => rfl
          · exact spares_run hheeds hrun rfl fun _ _ => rfl
          · next hfaulty =>
              exact spares_run hheeds hrun (World.wire_of_faulty hfaulty) fun _ _ => rfl
          · exact spares_run hheeds hrun rfl fun _ _ => rfl
      | .error (.file e) => exact spares_troubled hheeds hrun _
      | .error (.fault f) => exact spares_troubled hheeds hrun _

theorem spares_changeText (session : Session) (id : String) (memory : Record)
    (change : Option Change) (world : World) :
    Spares session world (session.changeText id memory change world) := by
  unfold changeText
  split
  · exact spares_silent rfl
  · next change =>
      have hheeds : Heeds world.site (world.site.updateMemory id (changeFields change)) :=
        heeds_updateMemory _ _
      cases hrun : world.run (world.site.updateMemory id (changeFields change)) with
      | mk result after =>
          cases result with
          | error trouble => exact spares_troubled hheeds hrun _
          | ok content =>
              refine spares_run hheeds hrun ?_ fun _ hresult => nomatch hresult
              cases change with
              | append text => rfl
              | replace text => rfl

theorem world_confirm (session : Session) (action : Pending Deed) (world : World) :
    (session.confirm action world).world = world := by
  unfold confirm
  split <;> rfl

/-- The memory is read before it is changed. -/
theorem spares_editMemory (session : Session) (id : Option String) (change : Option Change)
    (world : World) : Spares session world (session.editMemory id change world) := by
  unfold editMemory
  split
  · exact spares_silent rfl
  · next id =>
      have hheeds : Heeds world.site (world.site.memory id) := heeds_memory id
      cases hrun : world.run (world.site.memory id) with
      | mk result after =>
          cases result with
          | error trouble => exact spares_troubled hheeds hrun _
          | ok memory =>
              dsimp only
              split
              · exact (spares_silent rfl).behind hheeds hrun
              · exact (spares_silent (by rw [world_confirm])).behind hheeds hrun
              · exact (spares_changeText session id memory change after).behind hheeds hrun

theorem spares_deleteMany (session : Session) (everything : Bool) (category : Option String)
    (tags : List String) (missing : String) (world : World) :
    Spares session world (session.deleteMany everything category tags missing world) := by
  unfold deleteMany
  dsimp only
  have hheeds : Heeds world.site
      (world.site.deleteMemories everything (.ofOption category) (.strings tags)) :=
    heeds_deleteMemories _ _ _
  cases hrun : world.run
      (world.site.deleteMemories everything (.ofOption category) (.strings tags)) with
  | mk result after =>
      cases result with
      | error trouble => exact spares_troubled hheeds hrun _
      | ok count =>
          refine spares_run hheeds hrun ?_ fun _ hresult => nomatch hresult
          dsimp only
          split
          · rfl
          · split <;> rfl

theorem spares_deleteOne (session : Session) (target : Target) (id missing : String)
    (world : World) : Spares session world (session.deleteOne target id missing world) := by
  unfold deleteOne
  have hheeds : Heeds world.site (deleteEntry world.site target id session.visible) :=
    heeds_deleteEntry _ _ _
  cases hrun : world.run (deleteEntry world.site target id session.visible) with
  | mk result after =>
      cases result with
      | error trouble => exact spares_troubled hheeds hrun _
      | ok done =>
          refine spares_run hheeds hrun ?_ fun _ hresult => nomatch hresult
          dsimp only
          split <;> rfl

theorem spares_carryOutDelete (session : Session) (deletion : Deletion) (world : World) :
    Spares session world (session.carryOutDelete deletion world) := by
  unfold carryOutDelete
  dsimp only
  split
  · exact spares_deleteMany _ _ _ _ _ _
  · exact spares_deleteMany _ _ _ _ _ _
  · exact spares_deleteOne _ _ _ _ _
  · exact spares_silent rfl

theorem spares_shownFound {action : Call (List Json)} (session : Session) (query : Query)
    (searched : Bool) (hheeds : Heeds world.site action) :
    Spares session world (session.shownFound query searched (world.run action)) := by
  cases hrun : world.run action with
  | mk result after =>
      match result with
      | .error trouble => exact spares_troubled hheeds hrun _
      | .ok [] => exact spares_run hheeds hrun rfl fun _ _ => rfl
      | .ok (_ :: _) => exact spares_run hheeds hrun rfl fun _ hresult => nomatch hresult

theorem spares_retrieve (session : Session) (query : Query) (world : World) :
    Spares session world (session.retrieve query world) := by
  rw [retrieve_eq]
  cases query.search with
  | some text => exact spares_shownFound session query _ (heeds_searchMemories _ _)
  | none => exact spares_shownFound session query _ (heeds_memories _)

theorem spares_carryOut (session : Session) (instruction : Instruction) (world : World) :
    Spares session world (session.carryOut instruction world) := by
  cases instruction with
  | createMemory content category tags => exact spares_createMemory _ _ _ _ _
  | editMemory id change => exact spares_editMemory _ _ _ _
  | retrieve query => exact spares_retrieve _ _ _
  | delete deletion =>
      unfold carryOut delete
      dsimp only
      split
      · exact spares_silent (by rw [world_confirm])
      · exact spares_silent rfl
  | _ => exact spares_silent rfl

/-- Whatever is confirmed, the gate has been emptied before. -/
theorem spares_settle (session : Session) (line : String) (world : World) :
    Spares { session with gate := .empty, flow := .idle } world (session.settle line world) := by
  unfold settle Gate.resolve
  cases session.gate.pending with
  | none => exact spares_silent rfl
  | some action =>
      dsimp only
      cases Gate.decisionOf line with
      | none => exact spares_silent rfl
      | no => exact spares_silent rfl
      | yes =>
          dsimp only [Option.map_some]
          cases action.data with
          | delete deletion => exact spares_carryOutDelete _ _ _
          | edit memory =>
              refine spares_silent ?_
              dsimp only
              unfold openRevision
              split <;> rfl

/-- A revision that could not be saved changes nothing in the session. -/
theorem spares_revise {revision : Revision} (hrevision : session.flow = .editing revision)
    (line : String) (world : World) :
    ∃ requests, (session.revise revision line world).world.wire = world.wire.sendAll requests
      ∧ (LastFailed world.site world.wire requests →
        revision.place = .menu ∧ (session.revise revision line world).session = session) := by
  obtain ⟨requests, hwire, hstays⟩ := revision.answer_last line world
  unfold revise
  cases hanswer : revision.answer line world with
  | mk turn after =>
      rw [hanswer] at hwire hstays
      dsimp only at hwire hstays ⊢
      refine ⟨requests, ?_, fun hfailed => ?_⟩
      · split
        · exact hwire
        · exact hwire
      · obtain ⟨hplace, hstate, hended, hcompleted⟩ := hstays hfailed
        refine ⟨hplace, ?_⟩
        rw [hended, hcompleted, hstate, ← hrevision]
        rfl

theorem session_fillIn_open {form : Form} {line : String}
    (h : (form.answer line world).1.ended = false) :
    (session.fillIn form line world).session
      = { session with flow := .building (form.answer line world).1.state } := by
  unfold fillIn
  dsimp only
  rw [if_neg (Bool.eq_false_iff.mp h)]

/-- With the form goes the stand-in for its image. -/
theorem session_fillIn_over {form : Form} {line : String} {messages : List Message}
    (h : (form.answer line world).1.ended = true)
    (hreply : (session.fillIn form line world).reply = .ok messages) :
    (session.fillIn form line world).session = { session with
      flow := .idle
      visible := session.visible.filter fun value => !meets isPreview value } := by
  unfold fillIn at hreply ⊢
  dsimp only at hreply ⊢
  rw [if_pos h] at hreply ⊢
  split at hreply
  · cases hreply
  · next hkept =>
      rw [dropWhere_eq_filter hkept]

-- ================================================================= steps

/-- Whether the last request of a step fails. -/
def Step.LastFailed (step : Step) : Prop :=
  Backend.LastFailed step.world.site step.world.wire step.requests

/-- Only a line makes requests, in its place. -/
theorem routed_of_lastFailed {step : Step} (h : step.LastFailed) :
    ∃ text, step.input = .line text
      ∧ step.after = (step.before.route (trimmed text) step.world).session
      ∧ step.outcome.world = (step.before.route (trimmed text) step.world).world
      ∧ ∀ messages, step.outcome.reply = .ok messages →
        ∃ others, (step.before.route (trimmed text) step.world).reply = .ok others := by
  have hsilent : step.outcome.world = step.world → False := fun hsame => by
    unfold Step.LastFailed Step.requests at h
    have hnone : step.outcome.world.wire = step.world.wire.sendAll [] := congrArg World.wire hsame
    rw [World.requestsSince_of_wire hnone] at h
    exact not_lastFailed_nil h
  obtain ⟨session, input, world⟩ := step
  unfold Step.after Step.outcome take at *
  cases input with
  | line text =>
      unfold handle at hsilent ⊢
      dsimp only at hsilent ⊢
      split at hsilent
      · exact (hsilent rfl).elim
      · next hsome =>
          rw [if_neg hsome]
          refine ⟨text, rfl, rfl, rfl, fun messages hreply => ?_⟩
          cases hroute : (session.route (trimmed text) world).reply with
          | ok others => exact ⟨others, rfl⟩
          | error f =>
              rw [hroute] at hreply
              cases hreply
  | busy text =>
      refine (hsilent ?_).elim
      unfold handleBusy
      dsimp only
      split <;> rfl
  | file name image path =>
      refine (hsilent ?_).elim
      unfold selectFile
      dsimp only
      split
      · split
        · split <;> rfl
        · rfl
      · rfl

theorem gate_eq_empty {gate : Gate Deed} (h : gate.pending = none) : gate = .empty := by
  cases gate
  cases h
  rfl

/-- Whatever is handed to a session at any point of a run: if it is answered
and the last request on the way failed, the session is as it was.  Only a
confirmation is over.  A revision is still at its menu, with the same copy.
A form goes on with what it has collected, or it is over, its entry is in
the outbox, and nothing but stand-ins for images has gone from the memories
shown. -/
theorem failed_call_spares {username : String} {past : List Step} {step : Step}
    (h : Run username past step.before) (hfailed : step.LastFailed) {messages : List Message}
    (hreply : step.outcome.reply = .ok messages) :
    (step.before.flow = .idle ∨ step.before.flow = .confirming →
      step.after = { step.before with flow := .idle, gate := .empty })
      ∧ (∀ revision, step.before.flow = .editing revision →
        revision.place = .menu ∧ step.after = step.before)
      ∧ ∀ form, step.before.flow = .building form →
        ∃ text asked, step.input = .line text ∧ form.step? = some asked
          ∧ let turn := (form.answer (trimmed text) step.world).1
            turn.state.kind = form.kind ∧ asked.Answered form.draft turn.state.draft
              ∧ (step.after = { step.before with flow := .building turn.state }
                  ∧ Form.Kept step.world turn step.outcome.world
                ∨ step.after = { step.before with
                    flow := .idle
                    visible := step.before.visible.filter fun value => !meets isPreview value }
                  ∧ Form.Queued step.world turn step.outcome.world) := by
  have hcoherent := coherent_of_run h
  obtain ⟨text, hinput, hafter, hworld, hroute⟩ := routed_of_lastFailed hfailed
  obtain ⟨others, hroute⟩ := hroute messages hreply
  unfold Step.LastFailed Step.requests at hfailed
  rw [hafter]
  rw [hworld] at hfailed ⊢
  -- one goal for each dialogue that the line can meet
  unfold route at hfailed hroute ⊢
  refine ⟨?_, fun revision hflow => ?_, fun form hflow => ?_⟩
  · rintro (hflow | hflow)
    · rw [hflow] at hfailed ⊢
      dsimp only at hfailed ⊢
      have hgate := hcoherent.pending_eq_none (by rw [hflow]; exact Flow.noConfusion)
      rw [(spares_carryOut _ _ _).session_eq hfailed, ← gate_eq_empty hgate, ← hflow]
    · rw [hflow] at hfailed ⊢
      dsimp only at hfailed ⊢
      exact (spares_settle _ _ _).session_eq hfailed
  · rw [hflow] at hfailed ⊢
    dsimp only at hfailed ⊢
    obtain ⟨requests, hwire, hspares⟩ := spares_revise hflow (trimmed text) step.world
    rw [World.requestsSince_of_wire hwire] at hfailed
    exact hspares hfailed
  · rw [hflow] at hfailed hroute ⊢
    dsimp only at hfailed hroute ⊢
    rw [world_fillIn] at hfailed ⊢
    obtain ⟨asked, hasked, hkind, hanswered, hopen⟩ :=
      Form.answer_last (Form.sound_of_reachable (hcoherent.form form hflow)) hfailed
    refine ⟨text, asked, hinput, hasked, hkind, hanswered, ?_⟩
    rcases hopen with hqueued | hkept
    · exact .inr ⟨session_fillIn_over hqueued.ended hroute, hqueued⟩
    · exact .inl ⟨session_fillIn_open hkept.ended, hkept⟩

/-- The image is uploaded, its memory cannot be created, and the entry waits
in the outbox; the stand-in is gone. -/
theorem failed_call_spares_sea :
    let world : World := ⟨⟨"http://api.test/api", none⟩, ⟨[.reply 200 ""], .lost, []⟩, ⟨"/home", [], []⟩,
      .writable⟩
    let opening : Step := ⟨Session.start "ada", .line "save picture description: \"Sea\"", world⟩
    let choosing : Step := ⟨opening.after, .file "sea.png" (.text "") (some "/home/sea.png"), world⟩
    let saving : Step := ⟨choosing.after, .line "save", world⟩
    Run "ada" [opening, choosing] saving.before ∧ saving.LastFailed
      ∧ (∃ messages, saving.outcome.reply = .ok messages)
      ∧ saving.after = { saving.before with
          flow := .idle
          visible := saving.before.visible.filter fun value => !meets isPreview value } := by
  intro world opening choosing saving
  have hrun : Run "ada" [opening, choosing] saving.before := (Run.start.step _ world).step _ world
  have hlength : saving.requests.length = 2 := by decide +kernel
  have hfailed : saving.LastFailed := ⟨1, _, hlength, rfl⟩
  have hok : saving.outcome.reply.isOk = true := by decide +kernel
  have hover : saving.after.active = false := by decide +kernel
  obtain ⟨form, hflow⟩ : ∃ form, saving.before.flow = .building form := ⟨_, rfl⟩
  cases hreply : saving.outcome.reply with
  | error f =>
      rw [hreply] at hok
      cases hok
  | ok messages =>
      obtain ⟨-, -, hform⟩ := failed_call_spares hrun hfailed hreply
      obtain ⟨text, asked, -, -, -, -, ⟨hafter, -⟩ | ⟨hafter, -⟩⟩ := hform form hflow
      · rw [hafter] at hover
        cases hover
      · exact ⟨hrun, hfailed, ⟨messages, rfl⟩, hafter⟩

end Session
end Daybook
