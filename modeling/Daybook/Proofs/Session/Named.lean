/-
Which memory an edit changes.

A line names the memory to be edited by its id.  A text is changed at once,
under that id.  Any other memory is asked about first and then opened in a
revision, and from there on the id that the line named is forgotten: what
waits at the gate is the memory as it was read, and a revision saves under the
id that it finds in it.

`Pursued` is what carries the proofs: until the session is idle again, the
memory that was read is the one that waits or the one that is revised, so every
request to change a memory is `Aimed` at the same id (`aimed_of_pursuit`).
That id is the one that was named, but for a memory that holds none: this one
is saved as `None` (`written_to_named_iff`), although the question before the
revision shows the id that was named.
-/
import Daybook.Proofs.Revision.Cancelled
import Daybook.Proofs.Session.Run

namespace Daybook.Session

open Backend Http
open Message (reply note)
open Text (trimmed)

-- ============================================================== requests

/-- Whether a request, if it changes a memory, changes the one with this id;
images may be changed, too. -/
def Aimed (site : Site) (id : String) (request : Request) : Prop :=
  request.method = .put → request.url = site.base ++ ("/memories/" ++ id)
    ∨ ∃ image, request.url = site.base ++ ("/images/" ++ image)

variable {site : Site} {id : String} {memory : Record} {session : Session} {world after : World}

theorem aimed_of_method {request : Request} {method : Method} (h : request.method = method)
    (hother : method ≠ .put) : Aimed site id request := fun hput => absurd (h.symm.trans hput) hother

theorem aimed_updateMemory (id : String) (fields : Record) :
    Sends (Aimed site id) (site.updateMemory id fields) := sends_call fun _ => .inl rfl

theorem aimed_updateImage (image : String) (fields : Record) :
    Sends (Aimed site id) (site.updateImage image fields) := sends_call fun _ => .inr ⟨image, rfl⟩

/-- A revision is saved under the id of its memory. -/
theorem aimed_send (revision : Revision) (site : Site) :
    Sends (Aimed site revision.memoryId) (revision.send site) := by
  refine (aimed_updateMemory _ _).bind fun _ => ?_
  dsimp only
  split
  · exact (aimed_updateImage _ _).bind fun _ => sends_pure _
  · exact sends_pure _

theorem aimed_answer (revision : Revision) (line : String) (world : World) :
    World.Sent (Aimed world.site revision.memoryId) world (revision.answer line world).2 := by
  have hanswered := revision.answer_answered line world
  generalize revision.answer line world = outcome at hanswered ⊢
  cases hanswered with
  | leaves => exact .refl world
  | saves =>
      rw [revision.world_save]
      exact World.sent_run world (aimed_send revision world.site)
  | passes => exact .refl world

/-- Whether a step changes the memory with an id. -/
def Step.Changes (step : Step) (id : String) : Prop :=
  ∃ request ∈ step.requests, request.method = .put
    ∧ request.url = step.world.site.base ++ ("/memories/" ++ id)

/-- A memory is no image, and the url of one tells its id. -/
theorem id_of_changes {step : Step} {changed : String}
    (h : World.Sent (Aimed step.world.site id) step.world step.outcome.world)
    (hchanges : step.Changes changed) : changed = id := by
  obtain ⟨request, hmem, hput, hurl⟩ := hchanges
  have hcancel {path other : String} (hpath : request.url = step.world.site.base ++ path)
      (hother : request.url = step.world.site.base ++ other) : path.toList = other.toList := by
    have hlist := congrArg String.toList (hpath.symm.trans hother)
    rw [String.toList_append, String.toList_append] at hlist
    exact List.append_cancel_left hlist
  rcases h.all request hmem hput with hsame | ⟨image, himage⟩
  · have hpath := hcancel hurl hsame
    rw [String.toList_append, String.toList_append] at hpath
    exact String.toList_inj.mp (List.append_cancel_left hpath)
  · have hpath := hcancel hurl himage
    have hmemories : "/memories/".toList = '/' :: 'm' :: "emories/".toList := by decide
    have himages : "/images/".toList = '/' :: 'i' :: "mages/".toList := by decide
    rw [String.toList_append, String.toList_append, hmemories, himages] at hpath
    have hletter : 'm' = 'i' := (List.cons.inj (List.cons.inj hpath).2).1
    exact absurd hletter (by decide)

-- =============================================================== pursuits

/-- Whether a memory is edited in a revision. -/
def OpensRevision (memory : Record) : Prop :=
  isStructured ((Record.get memory "type").orElse (.str "text")) = .ok true

/-- Whether a step takes a line that names a memory to be edited, while no
dialogue is going on, and the backend has this memory for it. -/
structure Names (step : Step) (id : String) (memory : Record) : Prop where
  idle : step.before.flow = .idle
  line : ∃ text change, step.input = .line text
    ∧ Instruction.read (trimmed text) = .editMemory (some id) change
  stored : ((step.world.site.memory id).on step.world.wire).1 = .ok memory

/-- The steps that are made because of the first one: that step, and all others
until the session is idle again. -/
inductive Pursuit (first : Step) : List Step → Session → Prop
  | start : Pursuit first [first] first.after
  | step {past : List Step} {session : Session} (h : Pursuit first past session)
    (hgo : session.active = true) (input : Input) (world : World) :
    Pursuit first (past ++ [⟨session, input, world⟩]) (session.take input world).session

theorem flow_of_active (h : session.active = true) : session.flow ≠ .idle := by
  intro hidle
  unfold active at h
  rw [hidle] at h
  cases h

/-- What a memory that was read has come to: nothing more, it waits for a
confirmation, or it is revised. -/
inductive Pursued (memory : Record) (session : Session) : Prop
  | idle (hflow : session.flow = .idle)
  | asked {action : Pending Deed} (hflow : session.flow = .confirming)
    (hpending : session.gate.pending = some action) (hdata : action.data = .edit memory)
  | revised {revision : Revision} (hflow : session.flow = .editing revision)
    (hmemory : revision.memory = memory)

/-- The id under which the changes to a memory are sent. -/
def sentId (memory : Record) : String := (Record.get memory "id").text

/-- What is known of a step that is made because of an edit. -/
structure Pursues (memory : Record) (id : String) (world : World) (outcome : Outcome) : Prop where
  sent : World.Sent (Aimed world.site id) world outcome.world
  pursued : Pursued memory outcome.session

theorem pursues_openRevision (h : session.flow = .idle) :
    Pursues memory (sentId memory) world (session.openRevision memory world) := by
  unfold openRevision
  split
  · exact ⟨.refl world, .idle h⟩
  · next turn hturn => exact ⟨.refl world, .revised rfl (Revision.start_state hturn).1⟩

theorem pursues_settle {action : Pending Deed} (hflow : session.flow = .confirming)
    (hpending : session.gate.pending = some action) (hdata : action.data = .edit memory) (line : String) :
    Pursues memory (sentId memory) world (session.settle line world) := by
  unfold settle Gate.resolve
  rw [hpending]
  dsimp only
  cases Gate.decisionOf line with
  | none => exact ⟨.refl world, .asked hflow hpending hdata⟩
  | no => exact ⟨.refl world, .idle rfl⟩
  | yes =>
      dsimp only [Option.map_some]
      rw [hdata]
      exact pursues_openRevision rfl

theorem pursues_revise {revision : Revision} (hmemory : revision.memory = memory) (line : String) :
    Pursues memory (sentId memory) world (session.revise revision line world) := by
  have hsent := aimed_answer revision line world
  have hstate := revision.memory_answer line world
  have hid : revision.memoryId = sentId memory := by rw [← hmemory]; rfl
  rw [hid] at hsent
  rw [hmemory] at hstate
  unfold revise
  cases hanswer : revision.answer line world with
  | mk turn last =>
      rw [hanswer] at hsent hstate
      dsimp only at hsent hstate ⊢
      split
      · exact ⟨hsent, .revised rfl hstate⟩
      · split
        · exact ⟨hsent, .idle rfl⟩
        · exact ⟨hsent, .revised rfl hstate⟩

/-- Until the session is idle again, a memory that is waited for or revised is
saved under its own id. -/
theorem pursues_take (h : Pursued memory session) (hgo : session.flow ≠ .idle) (input : Input)
    (world : World) : Pursues memory (sentId memory) world (session.take input world) := by
  have hstays (messages : List Message) :
      Pursues memory (sentId memory) world (session.say messages world) := ⟨.refl world, h⟩
  cases input with
  | line text =>
      unfold take handle
      dsimp only
      split
      · exact hstays _
      · have hroute : Pursues memory (sentId memory) world (session.route (trimmed text) world) := by
          unfold route
          cases h with
          | idle hidle => exact absurd hidle hgo
          | asked hflow hpending hdata =>
              rw [hflow]
              exact pursues_settle hflow hpending hdata _
          | revised hflow hmemory =>
              rw [hflow]
              exact pursues_revise hmemory _
        exact ⟨hroute.sent, hroute.pursued⟩
  | busy text =>
      unfold take handleBusy
      dsimp only
      split
      · exact hstays _
      · exact hstays _
  | file name image path =>
      unfold take selectFile
      dsimp only
      split
      · next form hform =>
          cases h with
          | idle hidle => exact absurd hidle hgo
          | asked hflow => rw [hflow] at hform; cases hform
          | revised hflow => rw [hflow] at hform; cases hform
      · exact hstays _

-- ========================================================== the first step

theorem aimed_memory (world : World) (named : String) :
    World.Sent (Aimed world.site id) world (world.run (world.site.memory named)).2 :=
  World.sent_run world ((sends_memory named).mono fun _ hget => aimed_of_method hget (by decide))

/-- The memory that is named is read, and then edited. -/
theorem names_outcome {first : Step} (h : Names first id memory) : ∃ change,
    first.outcome.session = (first.before.editMemory (some id) change first.world).session
      ∧ first.outcome.world = (first.before.editMemory (some id) change first.world).world := by
  obtain ⟨text, change, hinput, hread⟩ := h.line
  refine ⟨change, ?_⟩
  unfold Step.outcome
  rw [hinput]
  unfold take
  dsimp only
  rw [handle_read h.idle hread fun _ => Instruction.noConfusion]
  exact ⟨rfl, rfl⟩

/-- What the edit of a memory comes to once it has been read. -/
theorem editMemory_eq {change : Option Change} (h : ((world.site.memory id).on world.wire).1 = .ok memory) :
    session.editMemory (some id) change world
      = match isStructured ((Record.get memory "type").orElse (.str "text")) with
        | .error f => session.stopAt f (world.run (world.site.memory id)).2
        | .ok true =>
          session.confirm ⟨"edit", .edit memory, "Do you want to edit "
            ++ ((Record.get memory "type").orElse (.str "text")).text ++ " #"
            ++ ((Record.get? memory "id").getD (.str id)).text ++ "? (yes/no)"⟩
            (world.run (world.site.memory id)).2
        | .ok false => session.changeText id memory change (world.run (world.site.memory id)).2 := by
  unfold editMemory
  dsimp only
  cases hrun : world.run (world.site.memory id) with
  | mk result read =>
      have hread : result = .ok memory := (congrArg Prod.fst hrun).symm.trans h
      subst hread
      rfl

/-- A memory that is opened in a revision is asked about first. -/
theorem pursues_of_opens {first : Step} (h : Names first id memory) (hopens : OpensRevision memory) :
    Pursues memory (sentId memory) first.world first.outcome := by
  obtain ⟨change, hsession, hworld⟩ := names_outcome h
  have hidle := h.idle
  have hedit : Pursues memory (sentId memory) first.world
      (first.before.editMemory (some id) change first.world) := by
    rw [editMemory_eq h.stored, hopens]
    dsimp only
    unfold confirm
    split
    · exact ⟨aimed_memory first.world id, .idle hidle⟩
    · next gate hgate =>
        unfold Gate.request at hgate
        split at hgate
        · cases hgate
        · cases hgate
          exact ⟨aimed_memory first.world id, .asked rfl rfl rfl⟩
  exact ⟨hworld ▸ hedit.sent, hsession ▸ hedit.pursued⟩

/-- A text is changed under the id it was named by. -/
theorem aimed_changeText (session : Session) (id : String) (memory : Record) (change : Option Change)
    (world : World) :
    World.Sent (Aimed world.site id) world (session.changeText id memory change world).world := by
  unfold changeText
  split
  · exact .refl world
  · next change =>
      have hsends : Sends (Aimed world.site id) (world.site.updateMemory id (changeFields change)) :=
        aimed_updateMemory id (changeFields change)
      have hsent := World.sent_run world hsends
      dsimp only
      cases hrun : world.run (world.site.updateMemory id (changeFields change)) with
      | mk result after =>
          rw [hrun] at hsent
          cases result with
          | error trouble =>
              dsimp only
              rw [world_troubled]
              exact hsent
          | ok content =>
              cases change with
              | append text => exact hsent
              | replace text => exact hsent

/-- Any other memory is changed at once, under the id that was named. -/
theorem aimed_of_not_opens {first : Step} (h : Names first id memory) (htext : ¬OpensRevision memory) :
    World.Sent (Aimed first.world.site id) first.world first.outcome.world
      ∧ first.after.flow = .idle := by
  obtain ⟨change, hsession, hworld⟩ := names_outcome h
  have hread : World.Sent (Aimed first.world.site id) first.world
      (first.world.run (first.world.site.memory id)).2 := aimed_memory first.world id
  have hedit : World.Sent (Aimed first.world.site id) first.world
        (first.before.editMemory (some id) change first.world).world
      ∧ (first.before.editMemory (some id) change first.world).session.flow = first.before.flow := by
    rw [editMemory_eq h.stored]
    split
    · exact ⟨hread, rfl⟩
    · next hopens => exact absurd hopens htext
    · exact ⟨hread.trans (aimed_changeText first.before id memory change _),
        (quiet_changeText first.before id memory change (.refl _)).flow⟩
  exact ⟨hworld ▸ hedit.1, (congrArg Session.flow hsession).trans (hedit.2.trans h.idle)⟩

-- ========================================================= the id that is sent

/-- The id under which the steps of a pursuit change a memory: that of the
memory in a revision, and else the one that was named. -/
theorem aimed_of_pursuit {first : Step} {past : List Step} (h : Names first id memory)
    (hpursuit : Pursuit first past session) :
    (OpensRevision memory → Pursued memory session ∧ ∀ step ∈ past,
        World.Sent (Aimed step.world.site (sentId memory)) step.world step.outcome.world)
      ∧ (¬OpensRevision memory → session.flow = .idle ∧ ∀ step ∈ past,
        World.Sent (Aimed step.world.site id) step.world step.outcome.world) := by
  induction hpursuit with
  | start =>
      constructor
      · intro hopens
        have hfirst := pursues_of_opens h hopens
        refine ⟨hfirst.pursued, fun step hmem => ?_⟩
        rw [List.mem_singleton.mp hmem]
        exact hfirst.sent
      · intro htext
        obtain ⟨hsent, hidle⟩ := aimed_of_not_opens h htext
        refine ⟨hidle, fun step hmem => ?_⟩
        rw [List.mem_singleton.mp hmem]
        exact hsent
  | @step past session hpursuit hgo input world ih =>
      constructor
      · intro hopens
        obtain ⟨hpursued, hbefore⟩ := ih.1 hopens
        have htake := pursues_take hpursued (flow_of_active hgo) input world
        refine ⟨htake.pursued, fun step hmem => ?_⟩
        rcases List.mem_append.mp hmem with hmem | hmem
        · exact hbefore step hmem
        · rw [List.mem_singleton.mp hmem]
          exact htake.sent
      · intro htext
        exact absurd (ih.2 htext).1 (flow_of_active hgo)

/-- Whether a memory is changed under another id than the one it was named by:
it is opened in a revision and holds no id. -/
def Misnamed (id : String) (memory : Record) : Prop :=
  OpensRevision memory ∧ Record.get? memory "id" = none ∧ id ≠ "None"

/-- A memory that holds no other id than the one it was named by is changed
under that id, in all that follows the edit: but not in a revision of a memory
that holds none.  Its changes go to `None`. -/
theorem written_to_named_iff {first : Step} {past : List Step} (hnames : Names first id memory)
    (hown : ∀ own ∈ Record.get? memory "id", own.text = id) (hpursuit : Pursuit first past session)
    {step : Step} (hstep : step ∈ past) {changed : String} (hchanges : step.Changes changed) :
    (changed = id ↔ ¬Misnamed id memory) ∧ (Misnamed id memory → changed = "None") := by
  obtain ⟨hrevised, htext⟩ := aimed_of_pursuit hnames hpursuit
  by_cases hopens : OpensRevision memory
  · have hchanged : changed = sentId memory := id_of_changes ((hrevised hopens).2 step hstep) hchanges
    unfold sentId Record.get at hchanged
    cases hid : Record.get? memory "id" with
    | none =>
        rw [hid] at hchanged
        have hnone : changed = "None" := hchanged
        refine ⟨?_, fun _ => hnone⟩
        rw [hnone]
        constructor
        · exact fun hsame hmisnamed => hmisnamed.2.2 hsame.symm
        · exact fun hright => Decidable.byContradiction fun hother =>
            hright ⟨hopens, hid, fun hsame => hother hsame.symm⟩
    | some own =>
        rw [hid] at hchanged
        have hsame : changed = id := hchanged.trans (hown own hid)
        have hright : ¬Misnamed id memory := fun h => nomatch hid.symm.trans h.2.1
        exact ⟨⟨fun _ => hright, fun _ => hsame⟩, fun h => absurd h hright⟩
  · have hsame : changed = id := id_of_changes ((htext hopens).2 step hstep) hchanges
    have hright : ¬Misnamed id memory := fun h => hopens h.1
    exact ⟨⟨fun _ => hright, fun _ => hsame⟩, fun h => absurd h hright⟩

/-- The memory that an answer holds, behind the name `memory`. -/
theorem memory_of_write {wire : Wire} {text : String} (hanswer : wire.answer 0 = .reply 200 text)
    (htext : text.toList = (Json.obj [("memory", .obj memory)]).write)
    (hplain : (Json.obj [("memory", .obj memory)]).isPlain = true)
    (hwritable : (Json.obj [("memory", .obj memory)]).isWritable = true) :
    ((site.memory id).on wire).1 = .ok memory := by
  have hne : text ≠ "" := by
    rintro rfl
    rw [Json.write] at htext
    cases htext
  have hread : Json.parse text = .ok (.obj [("memory", .obj memory)]) := by
    unfold Json.parse
    rw [htext]
    exact Json.readText_write hplain hwritable
  have hdecoded : decode site (wire.answer 0) = .ok [("memory", .obj memory)] := by
    rw [hanswer]
    unfold decode
    dsimp only
    rw [if_neg hne, hread]
    dsimp only
    rw [if_pos (by decide)]
    rfl
  have hcall : (site.call .get ("/memories/" ++ id) none .none).on wire = _ := on_call _ _ _ _ _
  rw [hdecoded] at hcall
  unfold Site.memory
  rw [on_bind_ok hcall]
  rfl

theorem changes_of_urls {step : Step} (h : (step.requests.map fun request => (request.method, request.url))
    = [(.put, step.world.site.base ++ ("/memories/" ++ id))]) : step.Changes id := by
  obtain ⟨request, hrequests, hsame⟩ := List.map_eq_singleton_iff.mp h
  refine ⟨request, ?_, congrArg Prod.fst hsame, congrArg Prod.snd hsame⟩
  rw [hrequests]
  exact List.mem_cons_self

theorem read_edit_twelve : Instruction.read (trimmed "edit memory #12") = .editMemory (some "12") none := by
  decide +kernel

/-- A list that holds the id it is named by. -/
theorem written_to_named_iff_groceries :
    let memory : Record := [("id", .str "12"), ("type", .str "list"), ("items", .arr [])]
    let text := "\x7b\"memory\": \x7b\"id\": \"12\", \"type\": \"list\", \"items\": []\x7d\x7d"
    let world : World :=
      ⟨⟨"http://api.test/api", none⟩, ⟨[.reply 200 text], .lost, []⟩, ⟨"/home", [], []⟩, .writable⟩
    let asking : Step := ⟨start "ada", .line "edit memory #12", world⟩
    let opening : Step := ⟨asking.after, .line "yes", world⟩
    let saving : Step := ⟨opening.after, .line "save", world⟩
    Names asking "12" memory ∧ (∀ own ∈ Record.get? memory "id", own.text = "12")
      ∧ Pursuit asking [asking, opening, saving] saving.after ∧ saving.Changes "12"
      ∧ ¬Misnamed "12" memory := by
  intro memory text world asking opening saving
  have hnames : Names asking "12" memory :=
    ⟨rfl, ⟨_, none, rfl, read_edit_twelve⟩, memory_of_write rfl (by decide +kernel) rfl rfl⟩
  have hown : ∀ own ∈ Record.get? memory "id", own.text = "12" := by
    intro own hid
    cases hid
    rfl
  have hpursuit : Pursuit asking [asking, opening, saving] saving.after :=
    (Pursuit.start.step (by decide +kernel) (.line "yes") world).step (by decide +kernel) (.line "save")
      world
  have hchanges : saving.Changes "12" := changes_of_urls (by decide +kernel)
  exact ⟨hnames, hown, hpursuit, hchanges,
    (written_to_named_iff hnames hown hpursuit
      (List.mem_cons_of_mem _ (List.mem_cons_of_mem _ List.mem_cons_self)) hchanges).1.mp rfl⟩

/-- A list that holds no id is edited as that with the id 12, and saved as
`None`. -/
theorem nameless_saved_as_none :
    let memory : Record := [("type", .str "list"), ("items", .arr [])]
    let text := "\x7b\"memory\": \x7b\"type\": \"list\", \"items\": []\x7d\x7d"
    let world : World :=
      ⟨⟨"http://api.test/api", none⟩, ⟨[.reply 200 text], .lost, []⟩, ⟨"/home", [], []⟩, .writable⟩
    let asking : Step := ⟨start "ada", .line "edit memory #12", world⟩
    let opening : Step := ⟨asking.after, .line "yes", world⟩
    let saving : Step := ⟨opening.after, .line "save", world⟩
    Names asking "12" memory ∧ (∀ own ∈ Record.get? memory "id", own.text = "12")
      ∧ Pursuit asking [asking, opening, saving] saving.after ∧ saving.Changes "None" := by
  intro memory text world asking opening saving
  have hnames : Names asking "12" memory :=
    ⟨rfl, ⟨_, none, rfl, read_edit_twelve⟩, memory_of_write rfl (by decide +kernel) rfl rfl⟩
  have hpursuit : Pursuit asking [asking, opening, saving] saving.after :=
    (Pursuit.start.step (by decide +kernel) (.line "yes") world).step (by decide +kernel) (.line "save")
      world
  have hnone : Record.get? memory "id" = none := rfl
  refine ⟨hnames, ?_, hpursuit, changes_of_urls (by decide +kernel)⟩
  intro own hid
  rw [hnone] at hid
  cases hid

end Daybook.Session
