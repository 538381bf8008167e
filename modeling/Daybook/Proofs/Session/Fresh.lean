/-
Memories that bear no mark of a stand-in.

A stand-in for an image that is not saved yet is known by a field, and any
value may have a field of that name.  `NoMarks` says that no answer of the
backend has it where memories are taken from, and `Fresh` that nothing has
it which a session got from there: neither the memories shown, nor the one
that waits for the confirmation of its revision, nor the one being revised.
Every handler keeps a session fresh, also where it stops at a fault.
-/
import Daybook.Proofs.Revision.Cancelled
import Daybook.Proofs.Session.Run

namespace Daybook

open Backend Http

-- =============================================================== records

/-- A field that a record does not give is none of its fields. -/
theorem Record.ne_of_get?_eq_none {record : Record} {key : JsonString}
    (h : record.get? key = none) : ∀ field ∈ record, field.1 ≠ key := by
  induction record with
  | nil => exact fun _ hmem => absurd hmem List.not_mem_nil
  | cons first record ih =>
      obtain ⟨name, value⟩ := first
      unfold get? at h
      split at h
      · cases h
      · next hname =>
          intro field hmem
          rcases List.mem_cons.mp hmem with rfl | hmem
          · exact hname
          · exact ih h field hmem

-- ================================================================= marks

/-- Whether a value is a memory without the mark of a stand-in. -/
def Unmarked (value : Json) : Prop :=
  ∃ memory, value = .obj memory ∧ Record.get? memory "preview" = none

theorem Unmarked.get? {memory : Record} (h : Unmarked (.obj memory)) :
    Record.get? memory "preview" = none := by
  obtain ⟨_, hmemory, hmark⟩ := h
  cases hmemory
  exact hmark

/-- Other fields may be set. -/
theorem Unmarked.merge {memory fields : Record} (h : Unmarked (.obj memory))
    (hfields : ∀ field ∈ fields, field.1 ≠ "preview") : Unmarked (.obj (memory.merge fields)) :=
  ⟨_, rfl, (Record.get?_merge memory hfields).trans h.get?⟩

theorem Unmarked.set {memory : Record} (h : Unmarked (.obj memory)) {key : JsonString}
    (value : Json) (hkey : key ≠ "preview") : Unmarked (.obj (memory.set key value)) :=
  ⟨_, rfl, (Record.get?_set_of_ne memory value hkey).trans h.get?⟩

namespace Session

variable {test : Json → Except Fault Bool} {visible kept : List Json} {value : Json}
  {memory : Record}

/-- Whether a test can be made and comes out true. -/
def meets (test : Json → Except Fault Bool) (value : Json) : Bool :=
  match test value with
  | .ok found => found
  | .error _ => false

/-- If each memory can be tested, those that pass are dropped and no others. -/
theorem dropWhere_eq_filter (h : dropWhere test visible = .ok kept) :
    kept = visible.filter fun value => !meets test value := by
  induction visible generalizing kept with
  | nil => exact (Except.ok.inj h).symm
  | cons value visible ih =>
      unfold dropWhere at h
      cases htest : test value with
      | error f =>
          rw [htest] at h
          cases h
      | ok drop =>
          rw [htest] at h
          cases hrest : dropWhere test visible with
          | error f =>
              rw [hrest] at h
              cases h
          | ok others =>
              rw [hrest] at h
              have hmeets : meets test value = drop := by
                unfold meets
                rw [htest]
              rw [List.filter_cons, hmeets, ← ih hrest]
              cases drop with
              | true => exact (Except.ok.inj h).symm
              | false => exact (Except.ok.inj h).symm

/-- Dropping memories brings in no new one. -/
theorem mem_of_dropWhere (h : dropWhere test visible = .ok kept) : ∀ value ∈ kept, value ∈ visible := by
  rw [dropWhere_eq_filter h]
  exact fun value => List.mem_of_mem_filter

/-- Only the new memory comes into view in place of another one, even where
the search for its place stops at a fault. -/
theorem mem_replaceVisible (memory : Record) (visible : List Json) :
    ∀ value ∈ (replaceVisible memory visible).1, value ∈ visible ∨ value = .obj memory := by
  induction visible with
  | nil => exact fun _ hmem => .inl hmem
  | cons first visible ih =>
      unfold replaceVisible
      split
      · exact fun _ hmem => .inl hmem
      · next same _ =>
          intro value hmem
          rcases List.mem_cons.mp hmem with rfl | hmem
          · cases same with
            | true => exact .inr rfl
            | false => exact .inl List.mem_cons_self
          · exact (ih value hmem).imp_left fun hmem => List.mem_cons_of_mem _ hmem

/-- A memory without the mark is no stand-in. -/
theorem isPreview_of_unmarked (h : Unmarked value) : isPreview value = .ok false := by
  obtain ⟨memory, rfl, hmark⟩ := h
  show Except.ok (!((Record.get? memory "preview").getD .null).isVacant) = _
  rw [hmark]
  rfl

theorem isPreview_previewOf (number : Nat) (filename : String) :
    isPreview (previewOf number filename) = .ok true := rfl

/-- Dropping the stand-ins leaves memories without the mark in view. -/
theorem dropWhere_unmarked (h : ∀ value ∈ visible, Unmarked value) :
    dropWhere isPreview visible = .ok visible := by
  induction visible with
  | nil => rfl
  | cons value visible ih =>
      unfold dropWhere
      rw [isPreview_of_unmarked (h value List.mem_cons_self),
        ih fun other hmem => h other (List.mem_cons_of_mem value hmem)]
      rfl

/-- Dropping the stand-ins leaves what is behind them. -/
theorem dropWhere_previewOf (h : ∀ value ∈ visible, Unmarked value) (number : Nat)
    (filename : String) : dropWhere isPreview (previewOf number filename :: visible) = .ok visible := by
  unfold dropWhere
  rw [isPreview_previewOf, dropWhere_unmarked h]
  rfl

end Session

-- =============================================================== answers

namespace Backend

variable {site : Site} {wire : Wire}

/-- Whether the content of an answer has no mark of a stand-in: neither
itself, nor as a memory, nor in the memories that it lists. -/
structure MarksNone (content : Record) : Prop where
  own : Record.get? content "preview" = none
  memory : ∀ memory, Record.get content "memory" = .obj memory → Record.get? memory "preview" = none
  memories : ∀ found, (Record.get content "memories").elementsOrNone = .ok found →
    ∀ value ∈ found, Unmarked value

/-- Whether no answer to come has a mark, if it is a success. -/
def NoMarks (site : Site) (wire : Wire) : Prop :=
  ∀ n content, decode site (wire.answer n) = .ok content → MarksNone content

theorem marksNone_nil : MarksNone [] where
  own := rfl
  memory _ hmemory := nomatch hmemory
  memories found hfound := by
    cases hfound
    exact fun _ hmem => absurd hmem List.not_mem_nil

/-- A memory that was created bears no mark: it is the one in the answer, or
the payload with an id. -/
theorem unmarked_created {payload created : Record} (hwire : NoMarks site wire)
    (hpayload : Unmarked (.obj payload))
    (h : ((site.createMemory payload).on wire).1 = .ok created) : Unmarked (.obj created) := by
  obtain ⟨content, hcall, hcreated⟩ := ok_of_on_bind h
  have hcontent := hwire 0 content (ok_of_on_call hcall)
  split at hcreated
  · next memory hmemory =>
      cases hcreated
      exact ⟨_, rfl, hcontent.memory _ hmemory⟩
  · cases hcreated
    exact hpayload.merge (Record.ne_of_get?_eq_none hcontent.own)

/-- A memory that was read is the one in the answer. -/
theorem unmarked_memory {id : String} {memory : Record} (hwire : NoMarks site wire)
    (h : ((site.memory id).on wire).1 = .ok memory) : Unmarked (.obj memory) := by
  obtain ⟨content, hcall, hfound⟩ := ok_of_on_bind h
  have hcontent := hwire 0 content (ok_of_on_call hcall)
  split at hfound
  · next other hother =>
      cases hfound
      exact ⟨_, rfl, hcontent.memory _ hother⟩
  · cases hfound

/-- Memories that are listed or searched for are asked for by one call. -/
theorem unmarked_found {α : Type} {value : Except Fault α} {next : α → Call Record}
    {found : List Json} (hwire : NoMarks site wire)
    (hnext : ∀ a, ∃ method path query body, next a = site.call method path query body)
    (h : ((Call.ofExcept value >>= fun a => next a >>= listed).on wire).1 = .ok found) :
    ∀ value ∈ found, Unmarked value := by
  cases value with
  | error f =>
      rw [on_bind_error (on_ofExcept_error f wire)] at h
      cases h
  | ok a =>
      rw [on_bind_ok (on_ofExcept_ok a wire)] at h
      obtain ⟨content, hcall, hlisted⟩ := ok_of_on_bind h
      obtain ⟨method, path, query, body, hnext⟩ := hnext a
      rw [hnext] at hcall
      exact (hwire 0 content (ok_of_on_call hcall)).memories found (ok_of_on_ofExcept hlisted)

end Backend

-- ============================================================== sessions

namespace Session

variable {session : Session} {world after : World} {visible : List Json} {memory : Record}

/-- Whether nothing that a session has from the backend bears the mark of a
stand-in. -/
structure Fresh (session : Session) : Prop where
  visible : ∀ value ∈ session.visible, Unmarked value
  waiting : ∀ action memory, session.gate.pending = some action → action.data = .edit memory →
    Unmarked (.obj memory)
  editing : ∀ revision, session.flow = .editing revision → Unmarked (.obj revision.memory)

theorem fresh_start (username : String) : (Session.start username).Fresh where
  visible _ hmem := absurd hmem List.not_mem_nil
  waiting _ _ haction := nomatch haction
  editing _ hediting := Flow.noConfusion hediting

/-- Other memories may be shown. -/
theorem Fresh.show (h : session.Fresh) (hvisible : ∀ value ∈ visible, Unmarked value) :
    { session with visible := visible }.Fresh := ⟨hvisible, h.waiting, h.editing⟩

theorem Fresh.drop (h : session.Fresh) {test : Json → Except Fault Bool}
    (hkept : dropWhere test session.visible = .ok visible) :
    { session with visible := visible }.Fresh :=
  h.show fun value hmem => h.visible value (mem_of_dropWhere hkept value hmem)

/-- A dialogue other than a revision may go on. -/
theorem Fresh.go (h : session.Fresh) {flow : Flow} (hflow : ∀ revision, flow ≠ .editing revision) :
    { session with flow := flow }.Fresh :=
  ⟨h.visible, h.waiting, fun revision hediting => absurd hediting (hflow revision)⟩

/-- Leaving a dialogue keeps a session fresh. -/
theorem Fresh.empty (h : session.Fresh) : { session with gate := .empty, flow := .idle }.Fresh :=
  ⟨h.visible, fun _ _ haction => (nomatch haction), fun _ hediting => Flow.noConfusion hediting⟩

/-- A memory that was created comes into view, and it bears no mark. -/
theorem fresh_createMemory (h : session.Fresh) (hworld : NoMarks world.site world.wire)
    (content : String) (category : Option String) (tags : List String) :
    (session.createMemory content category tags world).session.Fresh := by
  unfold createMemory
  split
  · exact h
  dsimp only
  have hpayload : Unmarked (.obj (textPayload content category tags)) := ⟨_, rfl, rfl⟩
  cases hrun : world.run (world.site.createMemory (textPayload content category tags)) with
  | mk result after =>
      match result with
      | .ok created =>
          refine h.show fun value hmem => ?_
          rcases List.mem_cons.mp hmem with rfl | hmem
          · exact unmarked_created hworld hpayload (World.result_of_run hrun)
          · exact h.visible value hmem
      | .error (.call e) =>
          dsimp only
          split <;> exact h
      | .error (.file e) => exact h
      | .error (.fault f) => exact h

/-- A memory that is brought up to date bears no mark. -/
theorem fresh_refresh (h : session.Fresh) (hmemory : Unmarked (.obj memory))
    (messages : List Message) (world : World) :
    (session.refresh memory messages world).session.Fresh := by
  refine h.show fun value hmem => ?_
  rcases mem_replaceVisible memory session.visible value hmem with hmem | rfl
  · exact h.visible value hmem
  · exact hmemory

/-- A changed memory differs in its text alone. -/
theorem fresh_changeText (h : session.Fresh) (hmemory : Unmarked (.obj memory)) (id : String)
    (change : Option Change) (world : World) :
    (session.changeText id memory change world).session.Fresh := by
  unfold changeText
  split
  · exact h
  · next change =>
      cases hrun : world.run (world.site.updateMemory id (changeFields change)) with
      | mk result after =>
          cases result with
          | error trouble =>
              dsimp only
              rw [session_troubled]
              exact h
          | ok content =>
              cases change with
              | append text => exact h
              | replace text => exact fresh_refresh h (hmemory.set _ (by decide)) _ _

/-- What waits for a confirmation may be the edit of a memory. -/
theorem fresh_confirm (h : session.Fresh) {action : Pending Deed}
    (haction : ∀ memory, action.data = .edit memory → Unmarked (.obj memory)) (world : World) :
    (session.confirm action world).session.Fresh := by
  unfold confirm
  split
  · exact h
  · next gate hgate =>
      unfold Gate.request at hgate
      split at hgate
      · cases hgate
      · cases hgate
        refine ⟨h.visible, fun other memory hother => ?_, fun _ hediting => Flow.noConfusion hediting⟩
        cases hother
        exact haction memory

/-- A memory that was read is changed, or it waits for the confirmation of its
revision. -/
theorem fresh_editMemory (h : session.Fresh) (hworld : NoMarks world.site world.wire)
    (id : Option String) (change : Option Change) :
    (session.editMemory id change world).session.Fresh := by
  unfold editMemory
  split
  · exact h
  · next id =>
      cases hrun : world.run (world.site.memory id) with
      | mk result after =>
          cases result with
          | error trouble =>
              dsimp only
              rw [session_troubled]
              exact h
          | ok memory =>
              have hmemory := unmarked_memory hworld (World.result_of_run hrun)
              dsimp only
              split
              · exact h
              · refine fresh_confirm h (fun other hother => ?_) after
                cases hother
                exact hmemory
              · exact fresh_changeText h hmemory id change after

/-- A deletion of many only drops memories. -/
theorem fresh_deleteMany (h : session.Fresh) (everything : Bool) (category : Option String)
    (tags : List String) (missing : String) (world : World) :
    (session.deleteMany everything category tags missing world).session.Fresh := by
  unfold deleteMany
  dsimp only
  split
  · rw [session_troubled]
    exact h
  · split
    · exact h.show fun _ hmem => absurd hmem List.not_mem_nil
    · split
      · exact h
      · next hkept => exact h.drop hkept

theorem fresh_deleteOne (h : session.Fresh) (target : Target) (id missing : String)
    (world : World) : (session.deleteOne target id missing world).session.Fresh := by
  unfold deleteOne
  split
  · rw [session_troubled]
    exact h
  · split
    · exact h
    · next hkept => exact h.drop hkept

/-- Every deletion that was confirmed only drops memories. -/
theorem fresh_carryOutDelete (h : session.Fresh) (deletion : Deletion) (world : World) :
    (session.carryOutDelete deletion world).session.Fresh := by
  unfold carryOutDelete
  dsimp only
  split
  · exact fresh_deleteMany h _ _ _ _ _
  · exact fresh_deleteMany h _ _ _ _ _
  · exact fresh_deleteOne h _ _ _ _
  · exact h

/-- What a query found comes into view in place of all else. -/
theorem fresh_shownFound (h : session.Fresh) (query : Query) (searched : Bool)
    {result : Except Trouble (List Json)}
    (hfound : ∀ found, result = .ok found → ∀ value ∈ found, Unmarked value) (world : World) :
    (session.shownFound query searched (result, world)).session.Fresh := by
  match result with
  | .error trouble =>
      unfold shownFound
      rw [session_troubled]
      exact h
  | .ok [] => exact h
  | .ok (first :: others) => exact h.show (hfound _ rfl)

/-- A query shows what the answer holds, and there are no marks in it. -/
theorem fresh_retrieve (h : session.Fresh) (hworld : NoMarks world.site world.wire)
    (query : Query) : (session.retrieve query world).session.Fresh := by
  rw [retrieve_eq]
  cases query.search with
  | some text =>
      refine fresh_shownFound h query _ (fun found hfound => ?_) _
      exact unmarked_found hworld (fun params => ⟨_, _, _, _, rfl⟩) hfound
  | none =>
      refine fresh_shownFound h query _ (fun found hfound => ?_) _
      exact unmarked_found hworld (fun params => ⟨_, _, _, _, rfl⟩) hfound

/-- Every instruction keeps a session fresh. -/
theorem fresh_carryOut (h : session.Fresh) (hworld : NoMarks world.site world.wire)
    (instruction : Instruction) : (session.carryOut instruction world).session.Fresh := by
  cases instruction with
  | createMemory content category tags => exact fresh_createMemory h hworld _ _ _
  | createTable columns rows => exact h.go fun _ => Flow.noConfusion
  | createList items => exact h.go fun _ => Flow.noConfusion
  | createTimeline events => exact h.go fun _ => Flow.noConfusion
  | savePicture description tags => exact h.go fun _ => Flow.noConfusion
  | editMemory id change => exact fresh_editMemory h hworld id change
  | delete deletion =>
      unfold carryOut delete
      dsimp only
      split
      · exact fresh_confirm h (fun _ hdata => Deed.noConfusion hdata) world
      · exact h
  | retrieve query => exact fresh_retrieve h hworld query
  | help => exact h
  | clear => exact h.show fun _ hmem => absurd hmem List.not_mem_nil
  | unknown line => exact h

/-- A confirmation that is settled opens the revision of the memory that
waited for it. -/
theorem fresh_settle (h : session.Fresh) (line : String) (world : World) :
    (session.settle line world).session.Fresh := by
  unfold settle Gate.resolve
  cases hpending : session.gate.pending with
  | none => exact h
  | some action =>
      dsimp only
      cases Gate.decisionOf line with
      | none => exact h
      | no => exact h.empty
      | yes =>
          dsimp only [Option.map_some]
          cases hdata : action.data with
          | delete deletion => exact fresh_carryOutDelete h.empty deletion world
          | edit memory =>
              dsimp only
              unfold openRevision
              split
              · exact h.empty
              · next turn hturn =>
                  refine ⟨h.visible, h.empty.waiting, fun revision hediting => ?_⟩
                  cases hediting
                  rw [(Revision.start_state hturn).1]
                  exact h.waiting action memory hpending hdata

/-- A memory that was revised comes into view with the fields that were
edited. -/
theorem fresh_revise (h : session.Fresh) {revision : Revision}
    (hrevision : session.flow = .editing revision) (line : String) (world : World) :
    (session.revise revision line world).session.Fresh := by
  have hmemory := revision.memory_answer line world
  unfold revise
  cases hanswer : revision.answer line world with
  | mk turn after =>
      rw [hanswer] at hmemory
      -- an edit never sets the mark, so neither does the revised memory bear it
      have hopen : Unmarked (.obj turn.state.memory) := by
        rw [hmemory]
        exact h.editing revision hrevision
      have hrevised : Unmarked (.obj turn.state.revised) :=
        hopen.merge (turn.state.copy.payload_ne turn.state.kind (by decide))
      have hshown : ∀ value ∈ (if turn.completed then
          replaceVisible turn.state.revised session.visible else (session.visible, .ok ())).1,
          Unmarked value := by
        split
        · exact (fresh_refresh h hrevised [] world).visible
        · exact h.visible
      have hgoes : ∀ revision, Flow.editing turn.state = .editing revision →
          Unmarked (.obj revision.memory) := by
        intro other hother
        cases hother
        exact hopen
      dsimp only
      split
      · exact ⟨hshown, h.waiting, hgoes⟩
      · dsimp only
        split
        · exact ⟨hshown, h.waiting, fun _ hediting => Flow.noConfusion hediting⟩
        · exact ⟨hshown, h.waiting, hgoes⟩

/-- A form that is over takes the stand-ins out of view and puts nothing in. -/
theorem fresh_fillIn (h : session.Fresh) (form : Form) (line : String) (world : World) :
    (session.fillIn form line world).session.Fresh := by
  have hidle : { session with flow := .idle }.Fresh := h.go fun _ => Flow.noConfusion
  unfold fillIn
  dsimp only
  split
  · split
    · exact hidle
    · next hkept => exact hidle.drop hkept
  · exact h.go fun _ => Flow.noConfusion

/-- Whatever dialogue goes on, its lines keep a session fresh. -/
theorem fresh_route (h : session.Fresh) (hworld : NoMarks world.site world.wire) (line : String) :
    (session.route line world).session.Fresh := by
  unfold route
  cases hflow : session.flow with
  | idle => exact fresh_carryOut h hworld _
  | confirming => exact fresh_settle h line world
  | building form => exact fresh_fillIn h form line world
  | editing revision => exact fresh_revise h hflow line world

end Session
end Daybook
