/-
Every input is answered, as long as the backend answers as it should.

A session holds three things that came from the backend: the memories shown
last, the memory that waits for the confirmation of its revision, and the
one being revised.  `Sane` says that they have the shapes that answers are
expected to have, and then no handler meets a value that it cannot use
(`replies_take`).  What a handler leaves in the session is again of these
shapes, so the invariant holds along every run whose answers are as
expected (`sane_of_run`).

Without that expectation an input may stop at a fault, but only at one
that a value from outside causes.  A count of deleted memories that is
infinite is enough (`infinite_count_escapes`).
-/
import Daybook.Proofs.Json.RoundTrip
import Daybook.Proofs.Session.Expected
import Daybook.Proofs.Session.Question
import Daybook.Proofs.Session.Sendable

namespace Daybook

open Backend Http
open Message (reply note)

/-- A field is one of the record's, or null. -/
theorem Record.get_cases (record : Record) (key : JsonString) :
    (∃ field ∈ record, field.1 = key ∧ Record.get record key = field.2)
      ∨ Record.get record key = .null := by
  induction record with
  | nil => exact .inr rfl
  | cons field record ih =>
      by_cases hkey : field.1 = key
      · have hget : Record.get (field :: record) key = field.2 := by
          unfold Record.get Record.get?
          rw [if_pos hkey]
          rfl
        exact .inl ⟨field, List.mem_cons_self, hkey, hget⟩
      · have hget : Record.get (field :: record) key = Record.get record key := by
          unfold Record.get
          rw [Record.get?, if_neg hkey]
        rw [hget]
        rcases ih with ⟨other, hmem, hother⟩ | hnull
        · exact .inl ⟨other, List.mem_cons_of_mem _ hmem, hother⟩
        · exact .inr hnull

namespace Session

variable {visible : List Json} {value : Json} {memory : Record}

-- ================================================== the memories shown

/-- What is listed can be asked for any field. -/
theorem field_of_listed (h : Listed value) (key : JsonString) :
    ∃ own, value.field key = .ok own := by
  obtain ⟨memory, rfl, -⟩ := h
  exact ⟨_, rfl⟩

/-- What is listed can be summed up, for its tags are a list of texts. -/
theorem summary_ok (h : Listed value) : ∃ text, Entry.summary value = .ok text := by
  obtain ⟨memory, rfl, -⟩ := h
  exact ⟨_, rfl⟩

theorem summaries_ok (h : ∀ value ∈ visible, Listed value) :
    ∃ lines, (visible.mapM fun memory => (Entry.summary memory).map fun text => note ("  " ++ text))
      = .ok lines := by
  refine mapM_ok fun value hmem => ?_
  obtain ⟨text, htext⟩ := summary_ok (h value hmem)
  rw [htext]
  exact ⟨_, rfl⟩

/-- What is listed can be tested: for an identifier, for the mark of a preview
and for having been deleted. -/
theorem hasId_ok (id : String) (h : Listed value) : ∃ same, hasId id value = .ok same := by
  obtain ⟨own, hown⟩ := field_of_listed h "id"
  unfold hasId
  rw [hown]
  exact ⟨_, rfl⟩

theorem isPreview_ok (h : Listed value) : ∃ mark, isPreview value = .ok mark := by
  obtain ⟨own, hown⟩ := field_of_listed h "preview"
  unfold isPreview
  rw [hown]
  exact ⟨_, rfl⟩

theorem isDeleted_ok (id : String) (h : Listed value) : ∃ gone, isDeleted id value = .ok gone := by
  obtain ⟨memory, rfl, -⟩ := h
  exact ⟨_, rfl⟩

/-- The category of a memory can be looked at. -/
theorem isFiled_ok (category : Option String) (memory : Record) (tagged : Bool) :
    ∃ found, (do
      if tagged then return true
      match category with
      | none => return false
      | some category =>
        if category = "" then return false
        match ← (Json.obj memory).field "category" with
        | .ofText own => return own == category
        | _ => return false : Except Fault Bool) = .ok found := by
  have hfield : (Json.obj memory).field "category" = .ok (Record.get memory "category") := rfl
  rw [hfield]
  split
  · exact ⟨_, rfl⟩
  · split
    · exact ⟨_, rfl⟩
    · split
      · exact ⟨_, rfl⟩
      · dsimp only [bind, Except.bind]
        split
        · exact ⟨_, rfl⟩
        · exact ⟨_, rfl⟩

/-- The tags of a memory that is listed can be compared. -/
theorem isMatch_ok (category : Option String) (tags : List String) (h : Listed value) :
    ∃ found, isMatch category tags value = .ok found := by
  obtain ⟨memory, rfl, own, hown⟩ := h
  have hfield : (Json.obj memory).field "tags" = .ok (Record.get memory "tags") := rfl
  have hstrings : ∀ test : Json → Bool, (∀ tag, test (.str tag) = false) →
      (own.map Json.str).any test = false := fun test htest => by
    rw [List.any_map, List.any_eq_false]
    exact fun tag _ => Bool.eq_false_iff.mp (htest tag)
  unfold isMatch
  by_cases hnone : tags.isEmpty = true
  · rw [if_pos hnone]
    exact isFiled_ok category memory false
  · rw [if_neg hnone, hfield]
    dsimp only [bind, Except.bind]
    rw [Json.elementsOrNone_of_isList hown]
    dsimp only
    rw [if_neg (Bool.eq_false_iff.mp (hstrings _ fun _ => rfl))]
    exact isFiled_ok category memory _

/-- If every test answers, some of the list is kept, and it stays a list of
what is listed. -/
theorem dropWhere_ok {test : Json → Except Fault Bool} (h : ∀ value ∈ visible, Listed value)
    (htest : ∀ value, Listed value → ∃ drop, test value = .ok drop) :
    ∃ kept, dropWhere test visible = .ok kept ∧ ∀ value ∈ kept, Listed value := by
  induction visible with
  | nil => exact ⟨[], rfl, h⟩
  | cons value visible ih =>
      have hvalue := h value List.mem_cons_self
      obtain ⟨drop, hdrop⟩ := htest value hvalue
      obtain ⟨kept, hkept, hlisted⟩ := ih fun other hmem => h other (List.mem_cons_of_mem value hmem)
      refine ⟨if drop then kept else value :: kept, ?_, fun other hmem => ?_⟩
      · unfold dropWhere
        rw [hdrop, hkept]
        rfl
      · split at hmem
        · exact hlisted other hmem
        · rcases List.mem_cons.mp hmem with rfl | hmem
          · exact hvalue
          · exact hlisted other hmem

theorem findVisible_ok (id : String) (h : ∀ value ∈ visible, Listed value) :
    ∃ found, findVisible id visible = .ok found := by
  induction visible with
  | nil => exact ⟨none, rfl⟩
  | cons value visible ih =>
      obtain ⟨same, hsame⟩ := hasId_ok id (h value List.mem_cons_self)
      obtain ⟨found, hfound⟩ := ih fun other hmem => h other (List.mem_cons_of_mem value hmem)
      unfold findVisible
      rw [hsame]
      cases same with
      | true => exact ⟨some value, rfl⟩
      | false => exact ⟨found, hfound⟩

theorem imageOf_ok (id : String) (h : ∀ value ∈ visible, Listed value) :
    ∃ image, imageOf id visible = .ok image := by
  obtain ⟨found, hfound⟩ := findVisible_ok id h
  unfold imageOf
  rw [hfound]
  dsimp only [bind, Except.bind]
  split
  · split
    · exact ⟨_, rfl⟩
    · exact ⟨_, rfl⟩
  · exact ⟨_, rfl⟩

/-- A memory whose tags are a list of texts takes the place of the one shown. -/
theorem replaceVisible_ok (hmemory : Tagged memory) (h : ∀ value ∈ visible, Listed value) :
    ∃ shown, replaceVisible memory visible = (shown, .ok ()) ∧ ∀ value ∈ shown, Listed value := by
  induction visible with
  | nil => exact ⟨[], rfl, h⟩
  | cons value visible ih =>
      have hvalue := h value List.mem_cons_self
      obtain ⟨same, hsame⟩ := hasId_ok (Record.get memory "id").text hvalue
      obtain ⟨shown, hshown, hlisted⟩ := ih fun other hmem => h other (List.mem_cons_of_mem value hmem)
      refine ⟨(if same then .obj memory else value) :: shown, ?_, fun other hmem => ?_⟩
      · unfold replaceVisible
        rw [hsame, hshown]
      · rcases List.mem_cons.mp hmem with rfl | hmem
        · split
          · exact ⟨memory, rfl, hmemory⟩
          · exact hvalue
        · exact hlisted other hmem

-- ========================================================== the session

/-- Whether what a session has from the backend is of the expected shapes. -/
structure Sane (session : Session) : Prop where
  visible : ∀ value ∈ session.visible, Listed value
  editing : ∀ revision, session.flow = .editing revision →
    revision.copy.Readable ∧ Tagged revision.memory
  waiting : ∀ action memory, session.gate.pending = some action → action.data = .edit memory →
    ∃ kind, Entry.WellTyped memory kind

/-- Whether an outcome has an answer and leaves a sane session. -/
structure Replies (outcome : Outcome) : Prop where
  reply : ∃ messages, outcome.reply = .ok messages
  sane : outcome.session.Sane

variable {session : Session} {world after : World}

/-- Other memories may be shown, if they are listed ones. -/
theorem Sane.show (h : session.Sane) (hvisible : ∀ value ∈ visible, Listed value) :
    { session with visible := visible }.Sane := ⟨hvisible, h.editing, h.waiting⟩

/-- With no dialogue going on and nothing waiting, only what is shown
counts. -/
theorem Sane.rest (h : session.Sane) {flow : Flow} {gate : Gate Deed}
    (hflow : ∀ revision, flow ≠ .editing revision) (hgate : gate = .empty ∨ gate = session.gate) :
    { session with flow := flow, gate := gate }.Sane where
  visible := h.visible
  editing revision hediting := absurd hediting (hflow revision)
  waiting action memory haction := by
    rcases hgate with rfl | rfl
    · cases haction
    · exact h.waiting action memory haction

/-- A sane session that says something has replied. -/
theorem replies_say (h : session.Sane) (messages : List Message) (world : World) :
    Replies (session.say messages world) := ⟨⟨messages, rfl⟩, h⟩

/-- A trouble that is no fault is told. -/
theorem replies_troubled (h : session.Sane) {trouble : Trouble} (htrouble : ∀ f, trouble ≠ .fault f)
    (onCall : CallError → String) (world : World) :
    Replies (session.troubled trouble onCall world) := by
  cases trouble with
  | call e => exact replies_say h _ _
  | file e => exact replies_say h _ _
  | fault f => exact absurd rfl (htrouble f)

/-- What is known of an action that has run. -/
theorem settles_of_run {α : Type} {P : α → Prop} {action : Call α} {result : Except Trouble α}
    (hyields : Yields world.site P action) (hworld : Promised world.site world.wire)
    (hrun : world.run action = (result, after)) : Settles P result := by
  rw [← World.result_of_run hrun]
  exact (hyields world.wire hworld).2

/-- A result that settles is not a fault. -/
theorem ne_fault_of_settles {α : Type} {P : α → Prop} {trouble : Trouble}
    (h : Settles P (.error trouble)) (f : Fault) : trouble ≠ .fault f := by
  rintro rfl
  exact h

-- ============================================================== handlers

/-- The payload of a text is given back by its line. -/
theorem exact_textPayload (content : String) (category : Option String) (tags : List String) :
    (Json.obj (textPayload content category tags)).Exact := by
  have hkeys : (["type", "content", "category", "tags"] : List JsonString).Nodup := by decide
  refine Json.exact_obj hkeys fun field hmem => ?_
  simp only [textPayload, List.mem_cons, List.not_mem_nil, or_false] at hmem
  rcases hmem with rfl | rfl | rfl | rfl
  · exact Json.exact_str _
  · exact Json.exact_str _
  · exact Json.exact_ofOption category
  · exact Json.exact_strings tags

/-- A memory for a text can always be queued. -/
theorem not_faulty_textPayload (world after : World) (e : CallError) (content : String)
    (category : Option String) (tags : List String) (f : Fault) :
    world.queueUnreached e "text" (some (.obj (textPayload content category tags)))
      ≠ .faulty f after := by
  have hrecorded := Outbox.recorded_entry "text" (exact_textPayload content category tags)
  rcases world.queueUnreached_spec e hrecorded with ⟨-, h⟩ | ⟨e', h⟩ | h
  · rw [h]
    exact World.Queueing.noConfusion
  · rw [h]
    exact World.Queueing.noConfusion
  · rw [h]
    exact World.Queueing.noConfusion

/-- Each action replies, if the backend keeps its promise; this and the next
ones take them one by one. -/
theorem replies_createMemory (h : session.Sane) (hworld : Promised world.site world.wire)
    (content : String) (category : Option String) (tags : List String) :
    Replies (session.createMemory content category tags world) := by
  unfold createMemory
  split
  · exact replies_say h _ _
  dsimp only
  have htagged : Tagged (textPayload content category tags) :=
    ⟨tags.map .whole, .inl (congrArg Json.arr (Json.map_ofText tags))⟩
  cases hrun : world.run (world.site.createMemory (textPayload content category tags)) with
  | mk result after =>
      have hsettles := settles_of_run (yields_createMemory htagged) hworld hrun
      match result with
      | .ok created =>
          refine replies_say (h.show fun value hmem => ?_) _ _
          rcases List.mem_cons.mp hmem with rfl | hmem
          · exact ⟨created, rfl, hsettles⟩
          · exact h.visible value hmem
      | .error (.call e) =>
          dsimp only
          split
          · exact replies_say h _ _
          · exact replies_say h _ _
          · next hfaulty => exact absurd hfaulty (not_faulty_textPayload _ _ _ _ _ _ _)
          · exact replies_say h _ _
      | .error (.file e) => exact replies_say h _ _
      | .error (.fault f) => exact hsettles.elim

theorem replies_refresh (h : session.Sane) (hmemory : Tagged memory) (messages : List Message)
    (world : World) : Replies (session.refresh memory messages world) := by
  obtain ⟨shown, hshown, hlisted⟩ := replaceVisible_ok hmemory h.visible
  unfold refresh
  rw [hshown]
  exact ⟨⟨messages, rfl⟩, h.show hlisted⟩

theorem replies_changeText (h : session.Sane) (hmemory : Tagged memory) (id : String)
    (change : Option Change) (world : World) :
    Replies (session.changeText id memory change world) := by
  unfold changeText
  split
  · exact replies_say h _ _
  · next change =>
      -- The answer to a change is not looked at, so nothing is asked of it.
      have hfaultless : Faultless (world.site.updateMemory id (changeFields change)) := stops_call
      cases hrun : world.run (world.site.updateMemory id (changeFields change)) with
      | mk result after =>
          cases result with
          | error trouble =>
              refine replies_troubled h (fun f hf => hfaultless world.wire f ?_) _ _
              rw [World.result_of_run hrun, hf]
          | ok content =>
              cases change with
              | append text => exact replies_say h _ _
              | replace text =>
                  have hset : Tagged (Record.set memory "content" (.str text)) := by
                    unfold Tagged
                    rw [Record.get_set_of_ne _ _ (by decide)]
                    exact hmemory
                  exact replies_refresh h hset _ _

/-- The type of a memory that has one can be looked up. -/
theorem isStructured_ok (hmemory : Complete memory) :
    ∃ answer, isStructured ((Record.get memory "type").orElse (.str "text")) = .ok answer := by
  have htext : ∀ name, ∃ answer, isStructured (.str name) = .ok answer := fun name => by
    cases name with
    | whole text => exact ⟨_, rfl⟩
    | broken before lone after apart => exact ⟨_, rfl⟩
  obtain ⟨name, hname | ⟨hnull, -⟩⟩ := hmemory.type
  · rw [hname]
    unfold Json.orElse
    split
    · exact htext "text"
    · exact htext name
  · rw [hnull]
    exact htext "text"

/-- Without a memory that waits for a confirmation, there is nothing to
overwrite. -/
theorem replies_editMemory (h : session.Sane) (hpending : session.gate.pending = none)
    (hworld : Promised world.site world.wire) (id : Option String) (change : Option Change) :
    Replies (session.editMemory id change world) := by
  unfold editMemory
  split
  · exact replies_say h _ _
  · next id =>
      cases hrun : world.run (world.site.memory id) with
      | mk result after =>
          have hsettles := settles_of_run (yields_memory id) hworld hrun
          cases result with
          | error trouble => exact replies_troubled h (ne_fault_of_settles hsettles) _ _
          | ok memory =>
              have hmemory : Complete memory := hsettles
              obtain ⟨answer, hanswer⟩ := isStructured_ok hmemory
              dsimp only
              rw [hanswer]
              cases answer with
              | false => exact replies_changeText h hmemory.tagged id change after
              | true =>
                  obtain ⟨kind, hkind⟩ := type_of_isStructured hanswer
                  dsimp only
                  rw [confirm_eq hpending]
                  refine ⟨⟨_, rfl⟩, h.visible, fun _ hediting => Flow.noConfusion hediting,
                    fun action other haction hdata => ?_⟩
                  -- What waits from now on is the memory that was just read.
                  cases haction
                  cases hdata
                  exact ⟨kind, hmemory.entry kind hkind⟩

theorem replies_openForm (h : session.Sane) {kind : Entry.Kind} {seed : Record}
    (hform : (Form.start kind seed).Reachable) (world : World) :
    Replies (session.openForm kind seed world) := by
  have hsound := Form.sound_of_reachable hform
  obtain ⟨step, hmem, hstep⟩ := Form.mem_of_index hsound.index
  obtain ⟨asked, hasked⟩ := Draft.prompt_ok hsound.draft hmem
  refine ⟨⟨asked, ?_⟩, h.rest (fun _ => Flow.noConfusion) (.inr rfl)⟩
  show (Form.start kind seed).prompt = _
  unfold Form.prompt Form.step?
  rw [hstep]
  exact hasked

theorem replies_openRevision (h : session.Sane) {kind : Entry.Kind}
    (hmemory : Entry.WellTyped memory kind) (world : World) :
    Replies (session.openRevision memory world) := by
  obtain ⟨copy, messages, hstart, hcopy⟩ := Revision.start_of_wellTyped hmemory
  unfold openRevision
  rw [hstart]
  refine ⟨⟨messages, rfl⟩, h.visible, fun revision hediting => ?_, h.waiting⟩
  cases hediting
  exact ⟨hcopy, tagged_of_wellTyped hmemory⟩

theorem replies_deleteMany (h : session.Sane) (hworld : Promised world.site world.wire)
    (everything : Bool) (category : Option String) (tags : List String) (missing : String) :
    Replies (session.deleteMany everything category tags missing world) := by
  unfold deleteMany
  dsimp only
  cases hrun : world.run
      (world.site.deleteMemories everything (.ofOption category) (.strings tags)) with
  | mk result after =>
      have hsettles := settles_of_run (yields_deleteMemories _ _ _) hworld hrun
      cases result with
      | error trouble => exact replies_troubled h (ne_fault_of_settles hsettles) _ _
      | ok count =>
          dsimp only
          split
          · exact replies_say (h.show fun _ hmem => absurd hmem List.not_mem_nil) _ _
          · obtain ⟨kept, hkept, hlisted⟩ :=
              dropWhere_ok h.visible fun _ => isMatch_ok category tags
            rw [hkept]
            exact replies_say (h.show hlisted) _ _

/-- Deleting yields a result, whether or not an image has to be deleted first. -/
theorem yields_deleteEntry {site : Site} (h : ∀ value ∈ visible, Listed value) (target : Target)
    (id : String) : Yields site (fun _ => True) (deleteEntry site target id visible) := by
  have hcall : ∀ path, Yields site (fun _ => True)
      (site.call .delete path none .none >>= fun _ => pure ()) :=
    fun path => (yields_call _ _ _ _).bind fun _ _ => yields_pure trivial
  unfold deleteEntry
  split
  · obtain ⟨image, himage⟩ := imageOf_ok id h
    refine (yields_ofExcept (P := fun _ => True) himage trivial).bind fun found _ => ?_
    split
    · refine Yields.bind (P := fun _ => True) ?_ fun _ _ => hcall _
      refine Yields.catch (hcall _) fun trouble htrouble => ?_
      cases trouble with
      | call e => exact yields_pure trivial
      | file e => exact fun _ hwire => ⟨hwire, trivial⟩
      | fault f => exact absurd rfl (htrouble f)
    · exact hcall _
  · exact hcall _

theorem replies_deleteOne (h : session.Sane) (hworld : Promised world.site world.wire)
    (target : Target) (id missing : String) :
    Replies (session.deleteOne target id missing world) := by
  unfold deleteOne
  cases hrun : world.run (deleteEntry world.site target id session.visible) with
  | mk result after =>
      have hsettles := settles_of_run (yields_deleteEntry h.visible target id) hworld hrun
      cases result with
      | error trouble => exact replies_troubled h (ne_fault_of_settles hsettles) _ _
      | ok done =>
          obtain ⟨kept, hkept, hlisted⟩ := dropWhere_ok h.visible fun _ => isDeleted_ok id
          dsimp only
          rw [hkept]
          exact replies_say (h.show hlisted) _ _

theorem replies_carryOutDelete (h : session.Sane) (hworld : Promised world.site world.wire)
    (deletion : Deletion) : Replies (session.carryOutDelete deletion world) := by
  unfold carryOutDelete
  dsimp only
  split
  · exact replies_deleteMany h hworld _ _ _ _
  · exact replies_deleteMany h hworld _ _ _ _
  · exact replies_deleteOne h hworld _ _ _
  · exact replies_say h _ _

theorem replies_revise (h : session.Sane) {revision : Revision}
    (hrevision : session.flow = .editing revision) (line : String) (world : World) :
    Replies (session.revise revision line world) := by
  obtain ⟨hcopy, hmemory⟩ := h.editing revision hrevision
  obtain ⟨messages, hreply⟩ := Revision.reply_of_answer hcopy line world
  have hkept := Revision.readable_answer hcopy line world
  have hsame := revision.memory_answer line world
  unfold revise
  cases hanswer : revision.answer line world with
  | mk turn after =>
      rw [hanswer] at hreply hkept hsame
      have htagged : Tagged turn.state.memory := by
        rw [hsame]
        exact hmemory
      have hshown : ∃ shown, (if turn.completed then
          replaceVisible turn.state.revised session.visible else (session.visible, .ok ()))
            = (shown, .ok ()) ∧ ∀ value ∈ shown, Listed value := by
        split
        · exact replaceVisible_ok (tagged_revised hkept htagged) h.visible
        · exact ⟨_, rfl, h.visible⟩
      obtain ⟨shown, hshown, hlisted⟩ := hshown
      dsimp only
      rw [hshown]
      refine ⟨⟨messages, hreply⟩, ?_⟩
      dsimp only
      split
      · exact (h.show hlisted).rest (fun _ => Flow.noConfusion) (.inr rfl)
      · refine ⟨hlisted, fun other hediting => ?_, h.waiting⟩
        cases hediting
        exact ⟨hkept, htagged⟩

/-- A form replies to every line, whatever the backend does. -/
theorem replies_fillIn (hcoherent : session.Coherent) (h : session.Sane) {form : Form}
    (hform : session.flow = .building form) (line : String) (world : World) :
    Replies (session.fillIn form line world) := by
  obtain ⟨step, -, hanswers⟩ :=
    Form.answer_spec (Form.sound_of_reachable (hcoherent.form form hform)) line world
  obtain ⟨messages, hreply⟩ := hanswers.reply
  obtain ⟨kept, hkept, hlisted⟩ := dropWhere_ok h.visible fun _ => isPreview_ok
  unfold fillIn
  cases hanswer : form.answer line world with
  | mk turn after =>
      rw [hanswer] at hreply
      dsimp only at hreply ⊢
      split
      · rw [hkept]
        exact ⟨⟨messages, hreply⟩, (h.show hlisted).rest (fun _ => Flow.noConfusion) (.inr rfl)⟩
      · exact ⟨⟨messages, hreply⟩, h.rest (fun _ => Flow.noConfusion) (.inr rfl)⟩

theorem replies_settle (h : session.Sane) (hworld : Promised world.site world.wire)
    (line : String) : Replies (session.settle line world) := by
  have hidle : { session with gate := .empty, flow := .idle }.Sane :=
    h.rest (fun _ => Flow.noConfusion) (.inl rfl)
  unfold settle Gate.resolve
  cases hpending : session.gate.pending with
  | none => exact replies_say h _ _
  | some action =>
      dsimp only
      cases Gate.decisionOf line with
      | none => exact replies_say h _ _
      | no => exact replies_say hidle _ _
      | yes =>
          dsimp only [Option.map_some]
          cases hdata : action.data with
          | delete deletion => exact replies_carryOutDelete hidle hworld deletion
          | edit memory =>
              obtain ⟨kind, hmemory⟩ := h.waiting action memory hpending hdata
              exact replies_openRevision hidle hmemory world

/-- A query has parameters: what it filters by are texts. -/
theorem listParams_query (query : Query) : ∃ params, listParams (queryParams query) = .ok params :=
  listParams_ok fun field hmem hkey => ⟨_, (tags_of_queryParams field hmem hkey).2⟩

theorem searchParams_query (text : String) (query : Query) :
    ∃ params, searchParams text (queryParams query) = .ok params := by
  unfold searchParams
  rcases Record.get_cases (queryParams query) "tags" with ⟨field, hmem, hkey, hget⟩ | hget
  · rw [hget, (tags_of_queryParams field hmem hkey).2, tagsParam_strings]
    exact ⟨_, rfl⟩
  · rw [hget]
    exact ⟨_, rfl⟩

theorem replies_shownFound (h : session.Sane) (query : Query) (searched : Bool)
    {result : Except Trouble (List Json)}
    (hsettles : Settles (fun found => ∀ value ∈ found, Listed value) result) (world : World) :
    Replies (session.shownFound query searched (result, world)) := by
  cases result with
  | error trouble => exact replies_troubled h (ne_fault_of_settles hsettles) _ _
  | ok found =>
      cases found with
      | nil => exact replies_say h _ _
      | cons memory found =>
          obtain ⟨lines, hlines⟩ := summaries_ok hsettles
          refine ⟨⟨_, congrArg (Except.map _) hlines⟩, h.show hsettles⟩

theorem replies_retrieve (h : session.Sane) (hworld : Promised world.site world.wire)
    (query : Query) : Replies (session.retrieve query world) := by
  rw [retrieve_eq]
  cases query.search with
  | some text =>
      obtain ⟨params, hparams⟩ := searchParams_query text query
      dsimp only [Option.elim]
      cases hrun : world.run (world.site.searchMemories text (queryParams query)) with
      | mk result after =>
          exact replies_shownFound h query _
            (settles_of_run (yields_searchMemories hparams) hworld hrun) after
  | none =>
      obtain ⟨params, hparams⟩ := listParams_query query
      dsimp only [Option.elim]
      cases hrun : world.run (world.site.memories (queryParams query)) with
      | mk result after =>
          exact replies_shownFound h query _
            (settles_of_run (yields_memories hparams) hworld hrun) after

theorem replies_carryOut (hcoherent : session.Coherent) (h : session.Sane)
    (hidle : session.flow = .idle) (hworld : Promised world.site world.wire)
    (instruction : Instruction) : Replies (session.carryOut instruction world) := by
  have hpending := hcoherent.pending_eq_none (by rw [hidle]; exact Flow.noConfusion)
  cases instruction with
  | createMemory content category tags => exact replies_createMemory h hworld _ _ _
  | createTable columns rows => exact replies_openForm h (.start .table) world
  | createList items => exact replies_openForm h (.start .list) world
  | createTimeline events => exact replies_openForm h (.start .timeline) world
  | savePicture description tags =>
      exact replies_openForm h (.picture .image description tags) world
  | editMemory id change => exact replies_editMemory h hpending hworld id change
  | delete deletion =>
      unfold carryOut delete
      dsimp only
      split
      · rw [confirm_eq hpending]
        refine ⟨⟨_, rfl⟩, h.visible, fun _ hediting => Flow.noConfusion hediting,
          fun action memory haction hdata => ?_⟩
        cases haction
        cases hdata
      · exact replies_say h _ _
  | retrieve query => exact replies_retrieve h hworld query
  | help => exact replies_say h _ _
  | clear => exact replies_say (h.show fun _ hmem => absurd hmem List.not_mem_nil) _ _
  | unknown line => exact replies_say h _ _

theorem replies_selectFile (hcoherent : session.Coherent) (h : session.Sane) (name : String)
    (image : Content) (path : Option String) (world : World) :
    Replies (session.selectFile name image path world) := by
  unfold selectFile
  split
  · next form hform =>
      split
      · obtain ⟨-, messages, hreply⟩ :=
          Form.deliver_spec (Form.sound_of_reachable (hcoherent.form form hform)) name image path
        dsimp only
        rw [hreply]
        refine ⟨⟨messages, rfl⟩, fun value hmem => ?_, fun _ hediting => Flow.noConfusion hediting,
          h.waiting⟩
        rcases List.mem_cons.mp hmem with rfl | hmem
        · exact ⟨_, rfl, [], .inr ⟨rfl, rfl⟩⟩
        · exact h.visible value hmem
      · exact replies_say h _ _
  · exact replies_say h _ _

-- ================================================================== runs

/-- Whatever a sane session is handed is answered, and it stays sane. -/
theorem replies_take (hcoherent : session.Coherent) (h : session.Sane)
    (hworld : Promised world.site world.wire) (input : Input) :
    Replies (session.take input world) := by
  cases input with
  | line text =>
      unfold take handle
      dsimp only
      split
      · exact replies_say h _ _
      · have hroute : Replies (session.route (Text.trimmed text) world) := by
          unfold route
          cases hflow : session.flow with
          | confirming => exact replies_settle h hworld _
          | building form => exact replies_fillIn hcoherent h hflow _ world
          | editing revision => exact replies_revise h hflow _ world
          | idle => exact replies_carryOut hcoherent h hflow hworld _
        obtain ⟨⟨messages, hreply⟩, hsane⟩ := hroute
        exact ⟨⟨_, congrArg (Except.map _) hreply⟩, hsane⟩
  | busy text =>
      unfold take handleBusy
      dsimp only
      split
      · exact replies_say h _ _
      · exact replies_say h _ _
  | file name image path => exact replies_selectFile hcoherent h name image path world

/-- A session is sane when it starts. -/
theorem sane_start (username : String) : (Session.start username).Sane where
  visible _ hmem := absurd hmem List.not_mem_nil
  editing _ hediting := Flow.noConfusion hediting
  waiting _ _ haction := nomatch haction

/-- A run whose answers are all as expected leaves a sane session. -/
theorem sane_of_run {username : String} {past : List Step} (h : Run username past session)
    (hpast : ∀ step ∈ past, Promised step.world.site step.world.wire) : session.Sane := by
  induction h with
  | start => exact sane_start username
  | step hrun input world ih =>
      -- The last of the answers is the one that the step itself looks at.
      have hbefore := ih fun step hmem => hpast step (List.mem_append_left _ hmem)
      have hlast := hpast _ (List.mem_append_right _ List.mem_cons_self)
      exact (replies_take (coherent_of_run hrun) hbefore hlast input).sane

-- ================================================== the count of an answer

/-- An answer that holds nothing but a count. -/
theorem decode_count (site : Site) {text : String} {c : Char} {cs : List Char} {count : Json}
    (htext : text.toList = '\x7b' :: '"' :: ("deletedCount".toList ++ '"' :: ':' :: ' ' :: c :: cs))
    (hc : Json.isAsciiDigit c = true) (hcount : Json.readNumber false (c :: cs) = .ok (count, ['\x7d'])) :
    decode site (.reply 200 text) = .ok [("deletedCount", count)] := by
  have hopening : Json.isOpening c = true := Json.isOpening_of_isAsciiDigit hc
  have hkey : (JsonString.whole "deletedCount").points.flatMap Json.escapePoint
      = "deletedCount".toList := by decide +kernel
  have hfields (fuel : Nat) : Json.readFields (fuel + 2) []
      ('"' :: ("deletedCount".toList ++ '"' :: ':' :: ' ' :: c :: cs))
        = .ok ([("deletedCount", count)], []) := by
    rw [← hkey, Json.readFields_colon, Json.skipSpace_gap, Json.skipSpace_opening hopening,
      Json.readValue_digit hc, hcount]
    rfl
  have hobject (fuel : Nat) : Json.readValue (fuel + 3)
      ('\x7b' :: '"' :: ("deletedCount".toList ++ '"' :: ':' :: ' ' :: c :: cs))
        = .ok (.obj [("deletedCount", count)], []) := by
    rw [Json.readValue, Json.skipSpace_opening (by decide)]
    exact congrArg (Except.map _) (hfields fuel)
  have hread : Json.parse text = .ok (.obj [("deletedCount", count)]) := by
    obtain ⟨fuel, hfuel⟩ : ∃ fuel, 2 * text.toList.length + 2 = fuel + 3 :=
      ⟨2 * text.toList.length - 1, by rw [htext, List.length_cons]; omega⟩
    unfold Json.parse Json.readText
    rw [hfuel, htext, Json.skipSpace_opening (by decide), hobject]
    rfl
  have hne : text ≠ "" := by
    rintro rfl
    cases htext
  have hdata : Record.get [("deletedCount", count)] "data" = .null :=
    Record.get_set_of_ne [] count (by decide)
  unfold decode
  dsimp only
  rw [if_neg hne, hread]
  dsimp only
  rw [if_pos (by decide)]
  unfold unwrapped
  dsimp only
  rw [hdata]

/-- An answer that holds nothing but a whole count is as expected. -/
theorem expected_count (n : Int) : Expected [("deletedCount", .int n)] := by
  have hother {key : JsonString} (hkey : key ≠ "deletedCount") :
      Record.get [("deletedCount", .int n)] key = .null := Record.get_set_of_ne [] (.int n) hkey.symm
  have hcount : Record.get [("deletedCount", .int n)] "deletedCount" = .int n :=
    Record.get_set_self [] "deletedCount" (.int n)
  constructor
  case memory =>
    intro memory hmemory
    rw [hother (by decide)] at hmemory
    cases hmemory
  case memories =>
    exact ⟨[], .inr ⟨hother (by decide), rfl⟩, fun _ hmem => absurd hmem List.not_mem_nil⟩
  case tags => exact TagsFit.nil.other (by decide)
  case count =>
    intro negative hnegative
    rw [hcount] at hnegative
    cases hnegative

/-- A count that cannot be taken stops a deletion of everything. -/
theorem reply_deleteMany {content : Record} {f : Fault} {missing : String}
    (hcontent : decode world.site (world.wire.answer 0) = .ok content)
    (hcount : count (Record.get content "deletedCount") = .error f) :
    (session.deleteMany true none [] missing world).reply = .error f := by
  have hparams : scopeParams true (.ofOption none) (.strings [])
      = .ok [("deleteAll", .str "true")] := rfl
  have hcall : (world.site.call .delete "/memories" (some [("deleteAll", .str "true")]) .none).on
      world.wire = _ := on_call _ _ _ _ _
  rw [hcontent] at hcall
  have hon : ((world.site.deleteMemories true (.ofOption none) (.strings [])).on world.wire).1
      = .error (.fault f) := by
    unfold Site.deleteMemories
    rw [if_neg (by decide), hparams]
    dsimp only
    rw [on_bind_ok (on_ofExcept_ok _ world.wire), on_bind_ok hcall, hcount]
    rfl
  have hrun : (world.run (world.site.deleteMemories true (.ofOption none) (.strings []))).1
      = .error (.fault f) := hon
  unfold deleteMany
  dsimp only
  cases hresult : world.run (world.site.deleteMemories true (.ofOption none) (.strings [])) with
  | mk result after =>
      rw [hresult] at hrun
      cases hrun
      rfl

/-- A count that cannot be turned into a number is the fault of the reply. -/
theorem reply_carryOutDelete {content : Record} {f : Fault} {deletion : Deletion}
    (heverything : deletion.everything = true)
    (hcontent : decode world.site (world.wire.answer 0) = .ok content)
    (hcount : count (Record.get content "deletedCount") = .error f) :
    (session.carryOutDelete deletion world).reply = .error f := by
  unfold carryOutDelete Deletion.scope?
  rw [if_pos heverything]
  exact reply_deleteMany hcontent hcount

-- ====================================================== what is answered

/-- At every point of every run, whatever the session is handed next stops
at a fault only if a value from outside causes it; and if all answers of the
backend are as expected, it is answered. -/
theorem answered_as_expected {username : String} {past : List Step} (h : Run username past session) :
    (∀ input world f, (session.take input world).reply = .error f → f.isForeign = true)
      ∧ ((∀ step ∈ past, Promised step.world.site step.world.wire) →
        ∀ input world, Promised world.site world.wire →
          ∃ messages, (session.take input world).reply = .ok messages) :=
  ⟨fun input world => (take_spec (coherent_of_run h) input world).reply,
    fun hpast input _ hworld =>
      (replies_take (coherent_of_run h) (sane_of_run h hpast) hworld input).reply⟩

/-- After a deletion of everything was asked for, the answer to what comes
next may hold a count that is finite. -/
theorem answered_as_expected_count :
    let world : World := ⟨⟨"http://api.test/api", none⟩,
      ⟨[.reply 200 "\x7b\"deletedCount\": 2\x7d"], .lost, []⟩, ⟨"/home", [], []⟩, .writable⟩
    let asking : Step := ⟨start "ada", .line "delete all", world⟩
    Run "ada" [asking] asking.after ∧ Promised world.site world.wire
      ∧ ∃ messages, (asking.after.take (.line "yes") world).reply = .ok messages := by
  intro world asking
  have hrun : Run "ada" [asking] asking.after := .step .start (.line "delete all") world
  have hcount : Json.readNumber false ['2', '\x7d'] = .ok (.int 2, ['\x7d']) := by cbv
  have hfirst : decode world.site (world.wire.answer 0) = .ok [("deletedCount", .int 2)] :=
    decode_count world.site rfl (by decide) hcount
  have hpromised : Promised world.site world.wire := by
    intro n content hcontent
    cases n with
    | zero =>
        rw [hfirst] at hcontent
        cases hcontent
        exact expected_count 2
    | succ n => cases hcontent
  have hpast : ∀ step ∈ [asking], Promised step.world.site step.world.wire := by
    intro step hmem
    cases List.mem_singleton.mp hmem
    exact hpromised
  exact ⟨hrun, hpromised, (answered_as_expected hrun).2 hpast (.line "yes") world hpromised⟩

/-- An infinite count of what was deleted stops the session at a fault. -/
theorem infinite_count_escapes :
    let world : World := ⟨⟨"http://api.test/api", none⟩,
      ⟨[.reply 200 "\x7b\"deletedCount\": 1e999\x7d"], .lost, []⟩, ⟨"/home", [], []⟩, .writable⟩
    let asking : Step := ⟨start "ada", .line "delete all", world⟩
    Run "ada" [asking] asking.after
      ∧ (asking.after.take (.line "yes") world).reply = .error .infiniteCount := by
  intro world asking
  have hread : Instruction.read (Text.trimmed "delete all")
      = .delete ⟨.memory, none, true, [], none⟩ := by decide +kernel
  -- The question is asked on the first line, and the yes carries the deletion out.
  have hasked : asking.after = { start "ada" with
      gate := ⟨some ⟨"delete", .delete ⟨.memory, none, true, [], none⟩, Scope.everything.question⟩⟩,
      flow := .confirming } := by
    rw [Step.after_mk, take_line, handle_delete rfl rfl hread rfl]
  have hcount : Json.readNumber false ['1', 'e', '9', '9', '9', '\x7d']
      = .ok (.float (.infinite false), ['\x7d']) := by
    have hround : Binary64.ofDecimal false 1 999 = .infinite false := by decide +kernel
    show Except.ok (Json.float (Binary64.ofDecimal false 1 999), ['\x7d']) = _
    rw [hround]
  have hfirst : decode world.site (world.wire.answer 0)
      = .ok [("deletedCount", .float (.infinite false))] :=
    decode_count world.site rfl (by decide) hcount
  refine ⟨.step .start (.line "delete all") world, ?_⟩
  have hget : Record.get [("deletedCount", .float (.infinite false))] "deletedCount"
      = .float (.infinite false) := Record.get_set_self [] "deletedCount" _
  have hfault : count (Record.get [("deletedCount", .float (.infinite false))] "deletedCount")
      = .error .infiniteCount := by
    rw [hget]
    rfl
  rw [hasked, take_line, handle_yes rfl rfl (by decide)]
  dsimp only
  rw [reply_carryOutDelete rfl hfirst hfault]
  rfl

end Session
end Daybook
