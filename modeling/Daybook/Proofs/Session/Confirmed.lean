/-
Nothing is deleted without a confirmation.

# What is shown

A step of a run asks for a deletion only if the gate held that deletion and
the line says yes, and the gate is empty from then on.  The deletion is the
one that was read from the line that armed the gate, and it has waited
there ever since.  So every deletion that was armed is carried out at most
once: those carried out, in order, are among those armed (`Sublist`).

# How the proof goes

`Turned` tells when a step arms the gate and when it empties it.  The
invariant puts the deletion that still waits behind those carried out: a
step either moves it from the one to the other, or drops it, or leaves both
alone (`carriedOut_waiting`).
-/
import Daybook.Proofs.Session.Deletion
import Daybook.Proofs.Session.Run
import Daybook.Proofs.Text.Pieces

namespace Daybook

open Backend Http

namespace Gate

/-- Only these two words say yes. -/
theorem yes_of_decisionOf {text : String} (h : decisionOf (Text.trimmed text) = .yes) :
    Text.lowercase (Text.trimmed text) ∈ ["yes", "y"] := by
  unfold decisionOf at h
  rw [Text.trimmed_trimmed] at h
  dsimp only at h
  split at h
  · next hyes => exact hyes
  · split at h
    · cases h
    · cases h

end Gate

namespace Session

variable {username : String} {past : List Step} {session : Session}

-- ================================================== arming and deleting

/-- The deletions that a step asks for. -/
def Step.deletions (step : Step) : List Request := step.requests.filter (·.method = .delete)

/-- The deletion that waits for a confirmation. -/
def waiting? (session : Session) : Option Deletion :=
  match session.gate.pending with
  | some ⟨_, .delete deletion, _⟩ => some deletion
  | _ => none

/-- The deletion that a step arms the gate with, as its line is read. -/
def Step.arms? (step : Step) : Option Deletion :=
  match step.input with
  | .line text =>
    match Instruction.read (Text.trimmed text) with
    | .delete deletion =>
      if step.before.gate.armed = false ∧ step.after.gate.armed = true then some deletion else none
    | _ => none
  | _ => none

/-- The deletion that a step carries out: the one that waits, if deletions
are asked for. -/
def Step.carriesOut? (step : Step) : Option Deletion :=
  if step.deletions.isEmpty then none else step.before.waiting?

/-- The deletions that were armed in a run, in order. -/
def armed (past : List Step) : List Deletion := past.filterMap Step.arms?

/-- The deletions that were carried out in a run, in order. -/
def carriedOut (past : List Step) : List Deletion := past.filterMap Step.carriesOut?

-- ============================================================= one step

theorem deletions_eq_nil {step : Step}
    (h : World.Sent (·.method ≠ .delete) step.world step.outcome.world) : step.deletions = [] := by
  unfold Step.deletions
  rw [List.filter_eq_nil_iff]
  intro request hmem
  have hmethod := h.all request hmem
  simpa using hmethod

/-- A step asks for deletions only as it carries out the one that waits. -/
theorem deletes_of_deletions (h : session.Coherent) {input : Input} {world : World}
    (hdeletions : (Step.mk session input world).deletions ≠ []) :
    ∃ deletion, Deletes session input world (session.take input world) deletion := by
  rcases (take_spec h input world).sent with hsent | hdeletes
  · exact absurd (deletions_eq_nil hsent) hdeletions
  · exact hdeletes

theorem waiting?_of_pending {action : Pending Deed} {deletion : Deletion}
    (h : session.gate.pending = some action) (hdata : action.data = .delete deletion) :
    session.waiting? = some deletion := by
  obtain ⟨kind, data, prompt⟩ := action
  subst hdata
  unfold waiting?
  rw [h]

theorem waiting?_of_gate {after : Session} (h : after.gate = session.gate) :
    after.waiting? = session.waiting? := by
  unfold waiting?
  rw [h]

theorem waiting?_of_empty (h : session.gate.pending = none) : session.waiting? = none := by
  unfold waiting?
  rw [h]

/-- The line that arms the gate with a deletion is read as that deletion. -/
theorem arms?_of_asked {text : String} {world : World} {deletion : Deletion} {kind prompt : String}
    (hempty : session.gate.pending = none)
    (hread : Instruction.read (Text.trimmed text) = .delete deletion)
    (hafter : (session.take (.line text) world).session.gate.pending
      = some ⟨kind, .delete deletion, prompt⟩) :
    (Step.mk session (.line text) world).arms? = some deletion := by
  unfold Step.arms?
  dsimp only
  rw [hread, Step.after_mk]
  dsimp only
  refine if_pos ⟨?_, ?_⟩
  · unfold Gate.armed
    rw [hempty]
    rfl
  · unfold Gate.armed
    rw [hafter]
    rfl

-- ========================================================== whole runs

theorem filterMap_append_step (f : Step → Option Deletion) (past : List Step) (step : Step) :
    (past ++ [step]).filterMap f = past.filterMap f ++ (f step).toList := by
  rw [List.filterMap_append]
  cases h : f step with
  | none => rw [List.filterMap_cons_none h]; rfl
  | some deletion => rw [List.filterMap_cons_some h]; rfl

/-- With the gate empty afterwards, all that waited before is carried out or
dropped. -/
theorem sublist_of_empty {step : Step} {after : Session} {target : List Deletion}
    (h : (carriedOut past ++ step.before.waiting?.toList).Sublist target)
    (hempty : after.gate.pending = none) :
    (carriedOut (past ++ [step]) ++ after.waiting?.toList).Sublist target := by
  have hmoved : step.carriesOut?.toList.Sublist step.before.waiting?.toList := by
    unfold Step.carriesOut?
    split
    · exact List.nil_sublist _
    · exact List.Sublist.refl _
  unfold carriedOut at h ⊢
  rw [filterMap_append_step, waiting?_of_empty hempty, Option.toList_none, List.append_nil]
  exact ((List.Sublist.refl _).append hmoved).trans h

/-- What was carried out, and behind it what still waits, was armed in that
order. -/
theorem carriedOut_waiting (h : Run username past session) :
    (carriedOut past ++ session.waiting?.toList).Sublist (armed past) := by
  induction h with
  | start => exact List.Sublist.refl []
  | @step past session hrun input world ih =>
      have hcoherent := coherent_of_run hrun
      have hstepped := take_spec hcoherent input world
      let step : Step := ⟨session, input, world⟩
      have hmore : (carriedOut past ++ session.waiting?.toList).Sublist (armed (past ++ [step])) := by
        unfold armed
        rw [filterMap_append_step]
        exact ih.trans (List.sublist_append_left _ _)
      by_cases hdeletions : step.deletions = []
      · have hcarried : carriedOut (past ++ [step]) = carriedOut past := by
          have hnone : step.carriesOut? = none := by
            unfold Step.carriesOut?
            rw [hdeletions]
            rfl
          unfold carriedOut
          rw [filterMap_append_step, hnone, Option.toList_none, List.append_nil]
        rcases hstepped.turned.gate with hgate | hgate | ⟨text, action, rfl, hidle, hasked, hgate⟩
        · rw [hcarried, waiting?_of_gate hgate]
          exact hmore
        · exact sublist_of_empty hmore (by rw [hgate]; rfl)
        · have hempty := hcoherent.pending_eq_none (by rw [hidle]; exact Flow.noConfusion)
          have hpending : (session.take (.line text) world).session.gate.pending = some action := by
            rw [hgate]
          rw [waiting?_of_empty hempty, Option.toList_none, List.append_nil] at ih
          rw [hcarried]
          unfold armed at ih ⊢
          rw [filterMap_append_step]
          refine ih.append ?_
          cases hasked with
          | delete hread hscope =>
              rw [waiting?_of_pending hpending rfl, arms?_of_asked hempty hread hpending]
          | edit prompt htype =>
              have hnone : (session.take (.line text) world).session.waiting? = none := by
                unfold waiting?
                rw [hpending]
              rw [hnone]
              exact List.nil_sublist _
      · obtain ⟨deletion, hdeletes⟩ := deletes_of_deletions hcoherent hdeletions
        exact sublist_of_empty hmore (by rw [hdeletes.gate]; rfl)

/-- A deletion that waits was read from the line that armed the gate, and
has waited since; nothing has been deleted meanwhile. -/
theorem armed_since (h : Run username past session) {kind prompt : String} {deletion : Deletion}
    (hpending : session.gate.pending = some ⟨kind, .delete deletion, prompt⟩) :
    Since past (·.arms? = some deletion) fun other =>
      other.before.gate.pending = some ⟨kind, .delete deletion, prompt⟩ ∧ other.deletions = [] := by
  induction h with
  | start => cases hpending
  | @step past session hrun input world ih =>
      have hcoherent := coherent_of_run hrun
      have hnone : (Step.mk session input world).deletions = [] := by
        refine Classical.byContradiction fun hdeletions => ?_
        obtain ⟨other, hdeletes⟩ := deletes_of_deletions hcoherent hdeletions
        rw [hdeletes.gate] at hpending
        cases hpending
      rcases (take_spec hcoherent input world).turned.gate with
        hgate | hgate | ⟨text, action, rfl, hidle, hasked, hgate⟩
      · rw [hgate] at hpending
        exact (ih hpending).later ⟨hpending, hnone⟩
      · rw [hgate] at hpending
        cases hpending
      · have hempty := hcoherent.pending_eq_none (by rw [hidle]; exact Flow.noConfusion)
        have haction : action = ⟨kind, .delete deletion, prompt⟩ := by
          rw [hgate] at hpending
          exact Option.some.inj hpending
        subst haction
        cases hasked with
        | delete hread hscope => exact since_now (arms?_of_asked hempty hread hpending)

-- ============================================================ main result

/-- Nothing is deleted without a confirmation.  Along every run, the
deletions carried out are among those armed, each at most once and in
order.  A step that asks for deletions had its deletion waiting in the gate
and a line that says yes; it empties the gate, asks for just what that
deletion names, and carries out the one that was read from the line that
armed the gate. -/
theorem run_deletes_only_what_was_confirmed (h : Run username past session) :
    (carriedOut past).Sublist (armed past) ∧ ∀ input world,
      (Step.mk session input world).deletions ≠ [] →
        ∃ text deletion prompt, input = .line text
          ∧ Text.lowercase (Text.trimmed text) ∈ ["yes", "y"]
          ∧ session.gate.pending = some ⟨"delete", .delete deletion, prompt⟩
          ∧ (Step.mk session input world).after.gate.pending = none
          ∧ deletion.Plain
          ∧ deletion.Reaches world.site session.visible (Step.mk session input world).deletions
          ∧ Since past (·.arms? = some deletion) fun other =>
              other.before.gate.pending = some ⟨"delete", .delete deletion, prompt⟩
                ∧ other.deletions = [] := by
  refine ⟨(List.sublist_append_left _ _).trans (carriedOut_waiting h),
    fun input world hdeletions => ?_⟩
  have hcoherent := coherent_of_run h
  obtain ⟨deletion, hdeletes⟩ := deletes_of_deletions hcoherent hdeletions
  obtain ⟨text, hinput, hyes⟩ := hdeletes.line
  obtain ⟨kind, prompt, hpending⟩ := hdeletes.waiting
  obtain ⟨line, hasked⟩ := hcoherent.waiting _ hpending
  cases hasked with
  | delete hread hscope =>
      have hplain := Instruction.plain_of_read hread
      obtain ⟨new, hsent, hnew⟩ := carryOutDelete_reaches hplain
        { session with gate := .empty, flow := .idle } world
      have hrequests : (Step.mk session input world).requests = new := by
        refine World.requestsSince_of_sent ?_
        show (session.take input world).world.wire.sent = world.wire.sent ++ new
        rw [hdeletes.world, hsent]
      have hall : (Step.mk session input world).deletions = new := by
        unfold Step.deletions
        rw [hrequests, List.filter_eq_self]
        intro request hmem
        rcases hnew with rfl | hreaches
        · cases hmem
        · exact decide_eq_true (hreaches.method request hmem)
      rcases hnew with rfl | hreaches
      · exact absurd hall hdeletions
      · refine ⟨text, deletion, _, hinput, Gate.yes_of_decisionOf hyes, hpending, ?_, hplain, ?_,
          armed_since h hpending⟩
        · rw [Step.after_mk, hdeletes.gate]
          rfl
        · rw [hall]
          exact hreaches

/-- All is deleted once that is asked for and confirmed. -/
theorem run_deletes_only_what_was_confirmed_all :
    let world : World := ⟨⟨"http://api.test/api", none⟩, ⟨[], .lost, []⟩, ⟨"/home", [], []⟩, .writable⟩
    let asking : Step := ⟨Session.start "ada", .line "delete all", world⟩
    let step : Step := ⟨asking.after, .line "yes", world⟩
    Run "ada" [asking] asking.after ∧ step.deletions ≠ []
      ∧ (carriedOut [asking]).Sublist (armed [asking])
      ∧ ∃ text deletion prompt, step.input = .line text
          ∧ Text.lowercase (Text.trimmed text) ∈ ["yes", "y"]
          ∧ asking.after.gate.pending = some ⟨"delete", .delete deletion, prompt⟩
          ∧ step.after.gate.pending = none ∧ deletion.Plain
          ∧ deletion.Reaches world.site asking.after.visible step.deletions
          ∧ Since [asking] (·.arms? = some deletion) fun other =>
              other.before.gate.pending = some ⟨"delete", .delete deletion, prompt⟩
                ∧ other.deletions = [] := by
  intro world asking step
  have hrun : Run "ada" [asking] asking.after := .step .start (.line "delete all") world
  have hdeletions : step.deletions ≠ [] := by
    intro hnil
    have hempty : step.deletions.isEmpty = false := by decide
    rw [hnil] at hempty
    cases hempty
  obtain ⟨hsublist, hall⟩ := run_deletes_only_what_was_confirmed hrun
  exact ⟨hrun, hdeletions, hsublist, hall (.line "yes") world hdeletions⟩

end Session
end Daybook
