/-
Faults: what goes wrong when a value does not have the shape that is
needed of it.

Memories come from outside and may hold anything.  Where a step needs more
of a value than it has, it stops with one of these causes and shows no
message.
-/

namespace Daybook

/-- Why a step stopped without an answer. -/
inductive Fault where
  /-- A field was asked of a value that is no object. -/
  | notAnObject
  /-- Something was appended to a value that is no array. -/
  | notAnArray
  /-- A value that is no string was taken for one. -/
  | notAString
  /-- A value that has no elements was taken for a collection. -/
  | notACollection
  /-- A collection was joined or compared that holds more than strings. -/
  | notStrings
  /-- A list was taken for a list of pairs and holds something else. -/
  | notPairs
  /-- A field that has to be there is missing. -/
  | missingField
  /-- A form is asked for more steps than it has. -/
  | noSuchStep
  /-- There is no form and no revision for such an entry. -/
  | unknownKind
  /-- An infinite number was taken for a count. -/
  | infiniteCount
  /-- A whole number has too many digits to be read. -/
  | tooManyDigits
  /-- The outbox file is not UTF-8. -/
  | undecodable
  /-- A path holds a null character. -/
  | nullInPath
  /-- A path holds a lone surrogate that stands for no byte. -/
  | unencodable
  /-- A path begins in the home directory of somebody who has none. -/
  | homeless
  /-- A confirmation was requested while another one was waiting. -/
  | alreadyWaiting (kind : String)
deriving DecidableEq

-- ======================================================= computations

/-- Steps that succeed together succeed one by one. -/
theorem ok_of_bind {α β : Type} {first : Except Fault α} {next : α → Except Fault β} {result : β}
    (h : (first >>= next) = .ok result) : ∃ value, first = .ok value ∧ next value = .ok result := by
  cases first with
  | ok value => exact ⟨value, rfl, h⟩
  | error f => cases h

/-- A list can be gone through if each of its elements can. -/
theorem mapM_ok {α β : Type} {f : α → Except Fault β} {values : List α}
    (h : ∀ value ∈ values, ∃ result, f value = .ok result) :
    ∃ results, values.mapM f = .ok results := by
  induction values with
  | nil => exact ⟨[], rfl⟩
  | cons value values ih =>
      obtain ⟨result, hresult⟩ := h value List.mem_cons_self
      obtain ⟨results, hresults⟩ := ih fun other hmem => h other (List.mem_cons_of_mem value hmem)
      refine ⟨result :: results, ?_⟩
      rw [List.mapM_cons, hresult, hresults]
      rfl

/-- What holds of all that can come of one element holds of all that comes of
a list. -/
theorem forall_of_mapM {α β : Type} {f : α → Except Fault β} {P : β → Prop} {values : List α}
    {results : List β} (h : values.mapM f = .ok results)
    (hone : ∀ value ∈ values, ∀ result, f value = .ok result → P result) :
    ∀ result ∈ results, P result := by
  induction values generalizing results with
  | nil =>
      cases h
      exact fun _ hmem => absurd hmem List.not_mem_nil
  | cons value values ih =>
      rw [List.mapM_cons] at h
      obtain ⟨first, hfirst, h⟩ := ok_of_bind h
      obtain ⟨others, hothers, h⟩ := ok_of_bind h
      cases h
      intro result hmem
      rcases List.mem_cons.mp hmem with rfl | hmem
      · exact hone value List.mem_cons_self _ hfirst
      · exact ih hothers (fun other hother => hone other (List.mem_cons_of_mem _ hother)) result hmem

end Daybook
