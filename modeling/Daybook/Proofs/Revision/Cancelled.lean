/-
What is left behind by a revision that is cancelled.

The last words of a cancelled revision are that no changes were saved, and
for most entries that is so: a revision ends at the first save that is
answered with a success.  An image is stored twice, as a memory and as the
image itself.  Saving it asks for the one and then for the other
(`on_send_both`), and if only the second request fails, the revision goes on
with the memory changed already.

This half of a save is all that a step can change without completing the
revision (`savesHalf_of_accepted`), and `cancelled_saved_iff` tells from it
when a cancelled revision has changed something after all.
-/
import Daybook.Proofs.Revision.Edits

namespace Daybook

open Backend Http
open Message (reply)
open Text (trimmed lowercase)

/-- Whether a memory is that of an image which the backend also stores by
itself. -/
def Entry.StoredTwice (memory : Record) : Prop :=
  Record.get memory "type" = .ofText "image" ∧ (Record.get memory "image_id").isVacant = false

namespace Revision

variable {revision : Revision} {memory : Record} {site : Site} {wire : Wire}

-- =============================================================== saving

/-- The request that changes the memory to the working copy. -/
def putMemory (revision : Revision) (site : Site) : Request :=
  ⟨.put, site.base ++ ("/memories/" ++ revision.memoryId), site.token, none,
    .json (.obj (revision.copy.payload revision.kind))⟩

/-- The request that changes the image itself to the working copy. -/
def putImage (revision : Revision) (site : Site) : Request :=
  ⟨.put, site.base ++ ("/images/" ++ (Record.get revision.memory "image_id").text), site.token,
    none, .json (.obj (revision.copy.payload revision.kind))⟩

/-- Whether saving goes on to the image itself. -/
def GoesOn (revision : Revision) : Prop :=
  revision.kind = .image ∧ (Record.get revision.memory "image_id").isVacant = false

theorem on_putMemory (revision : Revision) (site : Site) (wire : Wire) :
    (site.updateMemory revision.memoryId (revision.copy.payload revision.kind)).on wire
      = ((decode site (wire.answer 0)).mapError .call, wire.sendAll [revision.putMemory site]) :=
  on_call _ _ _ _ wire

theorem on_putImage (revision : Revision) (site : Site) (wire : Wire) :
    (site.updateImage (Record.get revision.memory "image_id").text
        (revision.copy.payload revision.kind)).on wire
      = ((decode site (wire.answer 0)).mapError .call, wire.sendAll [revision.putImage site]) :=
  on_call _ _ _ _ wire

theorem on_send_refused {e : CallError} (hfirst : decode site (wire.answer 0) = .error e) :
    (revision.send site).on wire
      = (.error (.call e), wire.sendAll [revision.putMemory site]) := by
  have hcall := revision.on_putMemory site wire
  rw [hfirst] at hcall
  exact on_bind_error hcall

theorem on_send_alone {content : Record} (halone : ¬revision.GoesOn)
    (hfirst : decode site (wire.answer 0) = .ok content) :
    (revision.send site).on wire = (.ok (), wire.sendAll [revision.putMemory site]) := by
  have hcall := revision.on_putMemory site wire
  rw [hfirst] at hcall
  refine (on_bind_ok hcall).trans ?_
  dsimp only
  split
  · next himage => exact absurd himage halone
  · rfl

/-- After the memory the image itself is asked for, and its answer decides. -/
theorem on_send_both {content : Record} (hgoes : revision.GoesOn)
    (hfirst : decode site (wire.answer 0) = .ok content) :
    (revision.send site).on wire
      = (((decode site (wire.answer 1)).mapError .call).map fun _ => (),
          wire.sendAll [revision.putMemory site, revision.putImage site]) := by
  have hcall := revision.on_putMemory site wire
  rw [hfirst] at hcall
  have hnext := revision.on_putImage site (wire.sendAll [revision.putMemory site])
  rw [Wire.answer_sendAll, ← Wire.sendAll_append] at hnext
  refine (on_bind_ok hcall).trans ?_
  dsimp only
  rw [if_pos ⟨hgoes.1, hgoes.2⟩]
  cases hsecond : decode site (wire.answer 1) with
  | ok more => exact on_bind_ok (hnext.trans (by rw [List.length_singleton, hsecond]; rfl))
  | error e => exact on_bind_error (hnext.trans (by rw [List.length_singleton, hsecond]; rfl))

/-- A save that succeeds, and no other, ends the revision and completes it. -/
theorem save_over (revision : Revision) (world : World) :
    let success := ((revision.send world.site).on world.wire).1.isOk
    (revision.save world).1.ended = success ∧ (revision.save world).1.completed = success := by
  unfold save
  rw [World.run_eq]
  cases ((revision.send world.site).on world.wire).1 with
  | ok done => exact ⟨rfl, rfl⟩
  | error trouble => cases trouble <;> exact ⟨rfl, rfl⟩

-- ============================================================== one step

/-- A step of a revision: the revision before it, the line that it takes and
its surroundings. -/
structure Step where
  before : Revision
  line : String
  world : World

namespace Step

/-- What a step comes to. -/
def outcome (step : Step) : Turn Revision × World := step.before.answer step.line step.world

/-- The requests that a step makes, in order. -/
def requests (step : Step) : List Request := World.requestsSince step.world step.outcome.2

/-- What the backend makes of the answer to a request of a step. -/
def decoded (step : Step) (index : Nat) : Except CallError Record :=
  decode step.world.site (step.world.wire.answer index)

/-- Whether a step makes a request that is answered with a success. -/
def Accepted (step : Step) (request : Request) : Prop :=
  ∃ index content, step.requests[index]? = some request ∧ step.decoded index = .ok content

/-- Whether a step saves the working copy. -/
def Saves (step : Step) : Prop := step.before.place = .menu ∧ wordOf step.line = "save"

/-- Whether a step changes the memory of an image and fails to change the
image itself. -/
def SavesHalf (step : Step) : Prop :=
  step.Saves ∧ step.before.GoesOn
    ∧ (∃ content, step.decoded 0 = .ok content) ∧ ∃ e, step.decoded 1 = .error e

end Step

variable {step : Step}

theorem outcome_of_saves (hsaves : step.Saves) : step.outcome = step.before.save step.world := by
  have hword : lowercase (trimmed step.line) = "save" := hsaves.2
  have hgoes : ¬lowercase (trimmed step.line) ∈ cancelWords := by
    rw [hword]
    decide
  unfold Step.outcome answer
  dsimp only
  rw [if_neg hgoes, if_pos ⟨hsaves.1, hword⟩]

/-- Only saving makes requests. -/
theorem requests_of_not_saves (hnot : ¬step.Saves) : step.requests = [] := by
  have hworld : step.outcome.2 = step.world := by
    unfold Step.outcome answer
    dsimp only
    split
    · rfl
    · rw [if_neg fun hsaves => hnot ⟨hsaves.1, hsaves.2⟩]
  unfold Step.requests
  rw [hworld]
  exact World.requestsSince_of_sent (List.append_nil _).symm

theorem requests_of_saves (hsaves : step.Saves) {requests : List Request}
    (hon : ((step.before.send step.world.site).on step.world.wire).2
      = step.world.wire.sendAll requests) : step.requests = requests := by
  unfold Step.requests
  rw [outcome_of_saves hsaves, world_save, World.run_eq, hon]
  exact World.requestsSince_of_wire rfl

theorem completed_of_saves (hsaves : step.Saves) : step.outcome.1.completed
    = ((step.before.send step.world.site).on step.world.wire).1.isOk := by
  rw [outcome_of_saves hsaves, (save_over _ _).2]

/-- A save that goes on has changed the memory. -/
theorem accepted_of_goesOn {content : Record} (hsaves : step.Saves) (hgoes : step.before.GoesOn)
    (hfirst : step.decoded 0 = .ok content) :
    step.Accepted (step.before.putMemory step.world.site) := by
  have hrequests := requests_of_saves hsaves (congrArg Prod.snd (on_send_both hgoes hfirst))
  refine ⟨0, content, ?_, hfirst⟩
  rw [hrequests]
  rfl

/-- A success that does not complete the revision is half of a save. -/
theorem savesHalf_of_accepted {request : Request} (hopen : step.outcome.1.completed = false)
    (haccepted : step.Accepted request) :
    step.SavesHalf ∧ request = step.before.putMemory step.world.site := by
  obtain ⟨index, other, hrequest, hother⟩ := haccepted
  by_cases hsaves : step.Saves
  case neg =>
    rw [requests_of_not_saves hsaves] at hrequest
    cases hrequest
  have hresult := completed_of_saves hsaves
  rw [hopen] at hresult
  cases hfirst : step.decoded 0 with
  | error e =>
      rw [requests_of_saves hsaves (congrArg Prod.snd (on_send_refused hfirst))] at hrequest
      match index with
      | 0 =>
          rw [hfirst] at hother
          cases hother
      | n + 1 => cases hrequest
  | ok content =>
      by_cases hgoes : step.before.GoesOn
      case neg =>
        rw [on_send_alone hgoes hfirst] at hresult
        cases hresult
      have hon := on_send_both hgoes hfirst
      rw [requests_of_saves hsaves (congrArg Prod.snd hon)] at hrequest
      rw [hon] at hresult
      cases hsecond : step.decoded 1 with
      | ok more =>
          have hanswer : decode step.world.site (step.world.wire.answer 1) = .ok more := hsecond
          rw [hanswer] at hresult
          cases hresult
      | error e =>
          refine ⟨⟨hsaves, hgoes, ⟨content, hfirst⟩, ⟨e, hsecond⟩⟩, ?_⟩
          match index with
          | 0 => exact (Option.some.inj hrequest).symm
          | 1 =>
              rw [hsecond] at hother
              cases hother
          | n + 2 => cases hrequest

/-- A step that does not end the revision does not complete it. -/
theorem completed_of_not_ended (hgo : step.outcome.1.ended = false) :
    step.outcome.1.completed = false := by
  have hanswered := step.before.answer_answered step.line step.world
  unfold Step.outcome at hgo ⊢
  generalize step.before.answer step.line step.world = outcome at hanswered hgo ⊢
  cases hanswered with
  | leaves => cases hgo
  | saves =>
      obtain ⟨hended, hcompleted⟩ := step.before.save_over step.world
      rw [hcompleted, ← hended, hgo]
  | passes hpassed => cases hpassed <;> rfl

/-- A step that ends the revision without completing it cancels it. -/
theorem cancels (hended : step.outcome.1.ended = true) (hopen : step.outcome.1.completed = false) :
    ¬step.Saves ∧ step.outcome.1.reply
      = .ok [reply (step.before.kind.label ++ " editing cancelled. No changes saved.")] := by
  have hnot : ¬step.Saves := by
    intro hsaves
    obtain ⟨hover, hdone⟩ := step.before.save_over step.world
    rw [outcome_of_saves hsaves] at hended hopen
    rw [hdone, ← hover, hended] at hopen
    cases hopen
  refine ⟨hnot, ?_⟩
  unfold Step.outcome answer at hended ⊢
  dsimp only at hended ⊢
  split
  · rfl
  · next hgoes =>
      rw [if_neg hgoes, if_neg fun hsaves => hnot ⟨hsaves.1, hsaves.2⟩] at hended
      have hpassed := step.before.take_passed (trimmed step.line)
      generalize step.before.take (trimmed step.line) = turn at hpassed hended
      cases hpassed <;> cases hended

-- ================================================================= runs

/-- Runs of a revision of a memory that is not over yet, with their steps so
far. -/
inductive Run (memory : Record) : List Step → Revision → Prop
  | start {turn : Turn Revision} (h : start memory = .ok turn) : Run memory [] turn.state
  | step {past : List Step} {step : Step} (h : Run memory past step.before)
    (hgo : step.outcome.1.ended = false) : Run memory (past ++ [step]) step.outcome.1.state

/-- A save that fails leads nowhere. -/
theorem Run.held {past : List Step} (hsaves : step.Saves) (hgo : step.outcome.1.ended = false)
    (h : Run memory past step.before) : Run memory (past ++ [step]) step.before := by
  have hnext := h.step hgo
  rw [outcome_of_saves hsaves, (step.before.save_spec step.world).1] at hnext
  exact hnext

theorem start_state {turn : Turn Revision} (h : start memory = .ok turn) :
    turn.state.memory = memory ∧ Record.get memory "type" = .ofText turn.state.kind.name := by
  obtain ⟨kind, copy, heading, htype, -, rfl⟩ := start_opened h
  exact ⟨rfl, htype⟩

/-- All revisions that can be met are of the memory that was opened, whose
type names their kind. -/
theorem memory_of_reachable (h : Reachable memory revision) :
    revision.memory = memory ∧ Record.get memory "type" = .ofText revision.kind.name := by
  refine h.induct (P := fun revision => revision.memory = memory
    ∧ Record.get memory "type" = .ofText revision.kind.name) (fun _ => start_state)
    fun revision hrevision text turn hpassed => ?_
  cases hpassed <;> exact hrevision

theorem goesOn_iff (h : Reachable memory revision) :
    revision.GoesOn ↔ Entry.StoredTwice memory := by
  obtain ⟨hmemory, htype⟩ := memory_of_reachable h
  have hkind : revision.kind = .image ↔ Record.get memory "type" = .ofText "image" := by
    rw [htype]
    refine ⟨fun himage => by rw [himage]; rfl, fun himage => ?_⟩
    exact Entry.Kind.name_injective (JsonString.whole.inj (Json.str.inj himage))
  rw [GoesOn, Entry.StoredTwice, hmemory, hkind]

/-- The steps of a run are of the memory that was opened, and none of them
completed the revision. -/
theorem steps_of_run {past : List Step} (hrun : Run memory past revision) :
    Reachable memory revision
      ∧ ∀ step ∈ past, Reachable memory step.before ∧ step.outcome.1.completed = false := by
  induction hrun with
  | start h => exact ⟨.start h, fun _ hmem => absurd hmem List.not_mem_nil⟩
  | @step past last _ hgo ih =>
      obtain ⟨hreachable, hpast⟩ := ih
      refine ⟨?_, fun step hmem => ?_⟩
      · unfold Step.outcome at hgo ⊢
        exact hreachable.answer last.line last.world hgo
      rcases List.mem_append.mp hmem with hmem | hmem
      · exact hpast step hmem
      · rw [List.mem_singleton.mp hmem]
        exact ⟨hreachable, completed_of_not_ended hgo⟩

/-- A revision that ends without being completed says that no changes were
saved.  The only requests of the whole run that were answered with a success
are then those that changed a memory just before the image itself could not
be changed; so something was saved after all exactly if the memory is that of
an image stored twice and the first answer to one of its saves was a
success. -/
theorem cancelled_saved_iff {past : List Step} {last : Step} (hrun : Run memory past last.before)
    (hended : last.outcome.1.ended = true) (hopen : last.outcome.1.completed = false) :
    last.outcome.1.reply
        = .ok [reply (last.before.kind.label ++ " editing cancelled. No changes saved.")]
      ∧ (∀ step ∈ past ++ [last], ∀ request, step.Accepted request ↔
          step.SavesHalf ∧ request = step.before.putMemory step.world.site)
      ∧ ((∃ step ∈ past ++ [last], ∃ request, step.Accepted request) ↔
          Entry.StoredTwice memory
            ∧ ∃ step ∈ past, step.Saves ∧ ∃ content, step.decoded 0 = .ok content) := by
  obtain ⟨hreachable, hpast⟩ := steps_of_run hrun
  obtain ⟨hnot, hreply⟩ := cancels hended hopen
  refine ⟨hreply, fun step hmem request => ⟨fun haccepted => ?_, ?_⟩, ?_, ?_⟩
  · have hstep : step.outcome.1.completed = false := by
      rcases List.mem_append.mp hmem with hmem | hmem
      · exact (hpast step hmem).2
      · rw [List.mem_singleton.mp hmem]
        exact hopen
    exact savesHalf_of_accepted hstep haccepted
  · rintro ⟨⟨hsaves, hgoes, ⟨content, hfirst⟩, -⟩, rfl⟩
    exact accepted_of_goesOn hsaves hgoes hfirst
  · rintro ⟨step, hmem, request, haccepted⟩
    rcases List.mem_append.mp hmem with hmem | hmem
    · obtain ⟨hmet, hstep⟩ := hpast step hmem
      obtain ⟨⟨hsaves, hgoes, hfirst, -⟩, -⟩ := savesHalf_of_accepted hstep haccepted
      exact ⟨(goesOn_iff hmet).mp hgoes, step, hmem, hsaves, hfirst⟩
    · rw [List.mem_singleton.mp hmem] at haccepted
      exact absurd (savesHalf_of_accepted hopen haccepted).1.1 hnot
  · rintro ⟨htwice, step, hmem, hsaves, content, hfirst⟩
    have hgoes := (goesOn_iff (hpast step hmem).1).mpr htwice
    exact ⟨step, List.mem_append_left _ hmem, _, accepted_of_goesOn hsaves hgoes hfirst⟩

theorem cancelled_saved_iff_guests :
    let world : World := ⟨⟨"http://api.test/api", none⟩, ⟨[], .lost, []⟩, ⟨"/home", [], []⟩, .writable⟩
    let opened := standing .table guests guestPage .menu
    let saving : Step := ⟨opened, "save", world⟩
    let leaving : Step := ⟨opened, "cancel", world⟩
    Run guests [saving] leaving.before ∧ leaving.outcome.1.ended = true
      ∧ leaving.outcome.1.completed = false
      ∧ leaving.outcome.1.reply = .ok [reply "Table editing cancelled. No changes saved."]
      ∧ ∀ step ∈ [saving, leaving], ∀ request, ¬step.Accepted request := by
  intro world opened saving leaving
  obtain ⟨messages, hstart⟩ := start_of_isOf (by decide) isOf_guests
  have hsaves : saving.Saves := ⟨rfl, by decide +kernel⟩
  have hrun : Run guests [saving] leaving.before := .held hsaves (by decide +kernel) (.start hstart)
  have hended : leaving.outcome.1.ended = true := by decide +kernel
  have hopen : leaving.outcome.1.completed = false := by decide +kernel
  obtain ⟨hreply, -, hsaved⟩ := cancelled_saved_iff hrun hended hopen
  refine ⟨hrun, hended, hopen, hreply, fun step hmem request haccepted => ?_⟩
  obtain ⟨⟨htype, -⟩, -⟩ := hsaved.mp ⟨step, hmem, request, haccepted⟩
  have hnames : "table" = "image" := JsonString.whole.inj (Json.str.inj htype)
  exact absurd hnames (by decide)

/-- The memory of an image that is also stored by itself. -/
def sea : Record :=
  [("id", .str "7"), ("type", .str "image"), ("description", .str "Sea"), ("tags", .arr []),
    ("image_id", .str "i1")]

/-- The image itself cannot be changed, the revision is cancelled and says
that no changes were saved, and the memory has been changed. -/
theorem memory_saved_though_cancelled :
    let site : Site := ⟨"http://api.test/api", none⟩
    let world : World := ⟨site, ⟨[.reply 200 ""], .lost, []⟩, ⟨"/home", [], []⟩, .writable⟩
    let opened : Revision := ⟨.image, sea, ⟨.null, .str "Sea", [], .null, [], []⟩, .menu⟩
    let saving : Step := ⟨opened, "save", world⟩
    let leaving : Step := ⟨opened, "cancel", world⟩
    Run sea [saving] leaving.before ∧ leaving.outcome.1.ended = true
      ∧ leaving.outcome.1.completed = false
      ∧ leaving.outcome.1.reply = .ok [reply "Image editing cancelled. No changes saved."]
      ∧ saving.Accepted ⟨.put, "http://api.test/api/memories/7", none, none,
          .json (.obj [("description", .str "Sea"), ("tags", .arr [])])⟩ := by
  intro site world opened saving leaving
  have htype : Record.get sea "type" = .ofText Entry.Kind.image.name := rfl
  obtain ⟨messages, hstart⟩ := start_of_load htype (rfl : Copy.load .image sea = .ok opened.copy)
  have hsaves : saving.Saves := ⟨rfl, by decide +kernel⟩
  have hrun : Run sea [saving] leaving.before := .held hsaves (by decide +kernel) (.start hstart)
  have hended : leaving.outcome.1.ended = true := by decide +kernel
  have hopen : leaving.outcome.1.completed = false := by decide +kernel
  refine ⟨hrun, hended, hopen, (cancels hended hopen).2, ?_⟩
  exact accepted_of_goesOn hsaves ⟨rfl, rfl⟩ rfl

end Revision
end Daybook
