/-
Actions whose last answer counts.

A direct action stops at the first answer that is a failure.  Deleting a
memory is not direct: it goes on when its image could not be deleted.  But
then the request for the memory itself always follows, and a failure of
that one stops the action.  `Heeds` is what both have in common: an action
whose last request fails does not succeed.

Two actions in a row heed their last answer if both do, or if the second
one makes a request in any case (`heeds_bind`).
-/
import Daybook.Proofs.Session.Deletion

namespace Daybook

open Backend Http

namespace Backend

variable {α β : Type} {site : Site} {wire : Wire} {first second : List Request}

-- ======================================================== failed requests

/-- Whether there is a last request and it fails: no answer comes, or its
status is an error, or its body is no JSON. -/
def LastFailed (site : Site) (wire : Wire) (requests : List Request) : Prop :=
  ∃ n e, requests.length = n + 1 ∧ decode site (wire.answer n) = .error e

/-- Where nothing was asked, nothing failed. -/
theorem not_lastFailed_nil : ¬LastFailed site wire [] := by
  rintro ⟨n, e, hlength, -⟩
  cases hlength

/-- The last request is among the later ones, if there are any. -/
theorem lastFailed_rest (hsecond : second ≠ []) (h : LastFailed site wire (first ++ second)) :
    LastFailed site (wire.sendAll first) second := by
  obtain ⟨n, e, hlength, hfailed⟩ := h
  have hpos := List.length_pos_iff.mpr hsecond
  rw [List.length_append] at hlength
  refine ⟨second.length - 1, e, by omega, ?_⟩
  rw [Wire.answer_sendAll]
  have hlast : first.length + (second.length - 1) = n := by omega
  rw [hlast]
  exact hfailed

/-- Whether an action whose last request fails does not succeed. -/
def Heeds (site : Site) (action : Call α) : Prop :=
  ∀ wire : Wire, ∃ requests, (action.on wire).2 = wire.sendAll requests
    ∧ (LastFailed site wire requests → ∃ trouble, (action.on wire).1 = .error trouble)

-- ============================================================== together

/-- An action that makes no request has no last answer to heed. -/
theorem heeds_silent {action : Call α} (h : ∀ wire, (action.on wire).2 = wire) :
    Heeds site action :=
  fun wire => ⟨[], h wire, fun hfailed => absurd hfailed not_lastFailed_nil⟩

theorem heeds_pure (a : α) : Heeds site (pure a : Call α) := heeds_silent fun _ => rfl

theorem heeds_throw (trouble : Trouble) : Heeds site (throw trouble : Call α) :=
  heeds_silent fun _ => rfl

/-- What is read from an answer at hand makes no request. -/
theorem heeds_ofExcept (value : Except Fault α) : Heeds site (Call.ofExcept value) := by
  cases value with
  | ok a => exact heeds_pure a
  | error f => exact heeds_throw (.fault f)

/-- A direct action stops at the first failure, so also at the last. -/
theorem Direct.heeds {action : Call α} (h : Direct site action) : Heeds site action := by
  intro wire
  obtain ⟨requests, hwire, htells⟩ := h wire
  refine ⟨requests, hwire, ?_⟩
  rintro ⟨n, e, hlength, hfailed⟩
  cases hresult : (action.on wire).1 with
  | error trouble => exact ⟨trouble, rfl⟩
  | ok a =>
      rw [hresult] at htells
      obtain ⟨content, hcontent⟩ := htells n (by omega)
      rw [hfailed] at hcontent
      cases hcontent

theorem heeds_call (method : Method) (path : String) (query : Option Record) (body : Body) :
    Heeds site (site.call method path query body) := (direct_call method path query body).heeds

/-- If the first action succeeds although its last request failed, the
second one has to make a request of its own. -/
theorem heeds_bind {action : Call α} {next : α → Call β}
    (h : ∀ wire : Wire, ∃ requests, (action.on wire).2 = wire.sendAll requests
      ∧ ∀ a, (action.on wire).1 = .ok a → LastFailed site wire requests → Asks (next a))
    (hnext : ∀ a, Heeds site (next a)) : Heeds site (action >>= next) := by
  intro wire
  obtain ⟨requests, hwire, hasks⟩ := h wire
  cases hon : action.on wire with
  | mk result wire' =>
      rw [hon] at hwire hasks
      dsimp only at hwire hasks
      cases result with
      | error trouble =>
          rw [on_bind_error hon]
          exact ⟨requests, hwire, fun _ => ⟨trouble, rfl⟩⟩
      | ok a =>
          obtain ⟨more, hmore, hfails⟩ := hnext a wire'
          rw [on_bind_ok hon]
          refine ⟨requests ++ more, ?_, fun hfailed => hfails ?_⟩
          · rw [hmore, hwire, Wire.sendAll_append]
          -- without a later request, the one that failed is the last of all
          by_cases hnone : more = []
          · rw [hnone, List.append_nil] at hfailed
            obtain ⟨request, others, hsent⟩ := hasks a rfl hfailed wire'
            rw [hmore, Wire.sent_sendAll, hnone] at hsent
            simp at hsent
          · rw [hwire]
            exact lastFailed_rest hnone hfailed

/-- Two actions in a row heed their last answer if each does. -/
theorem Heeds.bind {action : Call α} {next : α → Call β} (h : Heeds site action)
    (hnext : ∀ a, Heeds site (next a)) : Heeds site (action >>= next) := by
  refine heeds_bind (fun wire => ?_) hnext
  obtain ⟨requests, hwire, hfails⟩ := h wire
  refine ⟨requests, hwire, fun a hok hfailed => ?_⟩
  obtain ⟨trouble, htrouble⟩ := hfails hfailed
  rw [hok] at htrouble
  cases htrouble

-- =============================================================== actions

/-- Every operation of the service heeds its last answer; this and the next
ones take them one by one. -/
theorem heeds_createMemory (payload : Record) : Heeds site (site.createMemory payload) :=
  (direct_createMemory payload).heeds

/-- A record without an object in it is a trouble of its own, behind the only
request. -/
theorem heeds_memory (id : String) : Heeds site (site.memory id) := by
  refine (heeds_call _ _ _ _).bind fun content => ?_
  split
  · exact heeds_pure _
  · exact heeds_throw _

theorem heeds_memories (filters : Record) : Heeds site (site.memories filters) :=
  (heeds_ofExcept _).bind fun _ => (heeds_call _ _ _ _).bind fun _ => heeds_ofExcept _

theorem heeds_searchMemories (text : String) (filters : Record) :
    Heeds site (site.searchMemories text filters) :=
  (heeds_ofExcept _).bind fun _ => (heeds_call _ _ _ _).bind fun _ => heeds_ofExcept _

theorem heeds_updateMemory (id : String) (fields : Record) :
    Heeds site (site.updateMemory id fields) := heeds_call _ _ _ _

/-- The scope is settled before the only request is made. -/
theorem heeds_deleteMemories (everything : Bool) (category tags : Json) :
    Heeds site (site.deleteMemories everything category tags) := by
  unfold Site.deleteMemories
  split
  · exact (heeds_throw _).bind fun _ => (heeds_ofExcept _).bind fun _ =>
      (heeds_call _ _ _ _).bind fun _ => heeds_ofExcept _
  · exact (heeds_ofExcept _).bind fun _ => (heeds_call _ _ _ _).bind fun _ => heeds_ofExcept _

/-- Deleting something alone. -/
theorem heeds_deleteOnly (path : String) :
    Heeds site (site.call .delete path none .none >>= fun _ => pure () : Call Unit) :=
  (heeds_call _ _ _ _).bind fun _ => heeds_pure ()

/-- Deleting something alone makes a request in any case. -/
theorem asks_deleteOnly (path : String) :
    Asks (site.call .delete path none .none >>= fun _ => pure () : Call Unit) :=
  (asks_call _ _ _ _).bind (P := fun _ => True) fun _ => sends_pure ()

/-- Whatever becomes of the image, the request for the memory comes last. -/
theorem heeds_deleteEntry (target : Target) (id : String) (visible : List Json) :
    Heeds site (Session.deleteEntry site target id visible) := by
  unfold Session.deleteEntry
  split
  · refine (heeds_ofExcept _).bind fun found => ?_
    split
    · next image =>
        refine heeds_bind (fun wire => ?_) fun _ => heeds_deleteOnly _
        exact ⟨[site.deletion ("/images/" ++ image) none],
          congrArg Prod.snd (on_deleteImage site image wire), fun _ _ _ => asks_deleteOnly _⟩
    · exact heeds_deleteOnly _
  · exact heeds_deleteOnly _

end Backend

namespace World

variable {α : Type} {world after : World} {action : Call α} {result : Except Trouble α}

/-- What is known of an action that has run and heeds its last answer. -/
theorem heeded_of_run (h : Heeds world.site action) (hrun : world.run action = (result, after)) :
    ∃ requests, after = { world with wire := world.wire.sendAll requests }
      ∧ (LastFailed world.site world.wire requests → ∃ trouble, result = .error trouble) := by
  obtain ⟨requests, hwire, hfails⟩ := h world.wire
  rw [run_eq] at hrun
  cases hrun
  exact ⟨requests, congrArg (fun wire => { world with wire := wire }) hwire, hfails⟩

end World
end Daybook
