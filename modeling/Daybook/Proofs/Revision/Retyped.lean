/-
Retyping an event of a timeline as it is shown.

What is shown of an event is read as that event again (`read_shown`), so an
input that repeats it puts the event where it was.  Two of these inputs are
no events to the revision: an empty one is rejected, and one that is a word
for leaving ends the revision.  Both leave the working copy alone, too.
-/
import Daybook.Proofs.Entry.Event
import Daybook.Proofs.Revision.Edits

namespace Daybook

open Text (trimmed lowercase)

variable {revision : Revision} {event : Entry.Event} {index : Nat} {text : String}

/-- An event as an element of a timeline. -/
def Entry.Event.element (event : Entry.Event) : Element := .event (.str event.time) (.str event.description)

/-- An event is shown by its texts. -/
theorem Element.shownWith_event (event : Entry.Event) (separator : String) :
    event.element.shownWith separator = .ok (event.shown separator) := by
  show (Entry.eventText (.str event.time) (.str event.description) separator).map Json.text = _
  rw [Entry.eventText_str]
  rfl

namespace Revision

open Message (reply note)

/-- The prompt for another event shows the one that is to be replaced. -/
theorem editPrompt_event (hkind : revision.kind = .timeline) (index : Nat) (event : Entry.Event) :
    revision.editPrompt index event.element = .ok [
      reply ("Current: \"" ++ event.shown "-" ++ "\""),
      note "Enter new event (TIME - DESCRIPTION or just DESCRIPTION):"] := by
  unfold editPrompt
  rw [Element.shownWith_event, hkind]
  rfl

/-- A line of a timeline is an event if it says something. -/
theorem readElement_timeline (hkind : revision.kind = .timeline) (htext : text ≠ "") :
    revision.readElement text = .ok (Entry.Event.read text).element := by
  unfold readElement
  rw [hkind]
  exact if_neg htext

theorem takeEdited_empty (hkind : revision.kind = .timeline) (index : Nat) :
    revision.takeEdited index ""
      = revision.reject "Please enter the event (TIME - DESCRIPTION or just DESCRIPTION):" := by
  unfold takeEdited readElement
  rw [hkind]
  rfl

/-- Replacing an element by itself changes nothing. -/
theorem withElements_set_self {element : Element} (h : revision.copy.elements[index]? = some element) :
    revision.withElements (revision.copy.elements.set index element) = revision := by
  obtain ⟨hindex, hget⟩ := List.getElem?_eq_some_iff.mp h
  have hset : revision.copy.elements.set index element = revision.copy.elements := by
    rw [← hget]
    exact List.set_getElem_self hindex
  rw [hset]
  rfl

/-- An input that is read as the event in its place leads back to the menu
with the same working copy, and one that is no answer does not even lead
there. -/
theorem answer_same (hkind : revision.kind = .timeline) (hplace : revision.place = .edit index)
    (hevent : revision.copy.elements[index]? = some event.element) (hread : Entry.Event.read text = event)
    (world : World) : (revision.answer text world).1.state
      = { revision with place := if IsAnswer text then .menu else .edit index } := by
  have hsame : { revision with place := .edit index } = revision := by rw [← hplace]
  have htaken (hword : wordOf text ∉ cancelWords) :
      revision.answer text world = (revision.takeEdited index (trimmed text), world) := by
    have hstays : ¬lowercase (trimmed text) ∈ cancelWords := hword
    unfold answer take
    dsimp only
    rw [if_neg hstays, hplace, if_neg fun ⟨hmenu, _⟩ => nomatch hmenu]
  by_cases hword : wordOf text ∈ cancelWords
  · have hleaves : ¬IsAnswer text := fun hanswer => hanswer.2 hword
    have hcancel : lowercase (trimmed text) ∈ cancelWords := hword
    rw [if_neg hleaves, hsame]
    unfold answer
    dsimp only
    rw [if_pos hcancel]
    rfl
  by_cases hempty : trimmed text = ""
  · have hleaves : ¬IsAnswer text := fun hanswer => hanswer.1 hempty
    rw [if_neg hleaves, hsame, htaken hword, hempty, takeEdited_empty hkind]
    rfl
  · have hanswer : IsAnswer text := ⟨hempty, hword⟩
    have helement : revision.readElement (trimmed text) = .ok event.element := by
      rw [readElement_timeline hkind hempty, Entry.read_trimmed, hread]
    obtain ⟨message, hedited⟩ := takeEdited_ok index helement
    rw [if_pos hanswer, htaken hword, hedited, withElements_set_self hevent]
    rfl

/-- An event of a line is read back from what is shown of it, whatever dash
it is shown with.  So retyping what the prompt for another event shows
leaves the revision as it is, back at the menu if the line is an answer. -/
theorem retyped_event_stays {s separator : String} {event : Entry.Event} (hbreak : '\n' ∉ s.toList)
    (hread : Entry.Event.read s = event) (hseparator : separator ∈ ["-", "–", "—"]) :
    Entry.Event.read (event.shown separator) = event
      ∧ ∀ (revision : Revision) (index : Nat),
        revision.kind = .timeline → revision.place = .edit index →
        revision.copy.elements[index]? = some event.element →
        event.element.shownWith separator = .ok (event.shown separator)
        ∧ revision.editPrompt index event.element = .ok [
          reply ("Current: \"" ++ event.shown "-" ++ "\""),
          note "Enter new event (TIME - DESCRIPTION or just DESCRIPTION):"]
        ∧ ∀ world, (revision.answer (event.shown separator) world).1.state
          = { revision with place := if IsAnswer (event.shown separator) then .menu else .edit index } := by
  have hagain : Entry.Event.read (event.shown separator) = event := by
    rw [← hread]
    exact Entry.read_shown hbreak hseparator
  refine ⟨hagain, fun revision index hkind hplace hevent => ?_⟩
  exact ⟨Element.shownWith_event _ separator, editPrompt_event hkind index _, fun world =>
    answer_same hkind hplace hevent hagain world⟩

/-- An hour is spelled out when it is read, and then no more. -/
theorem retyped_event_stays_walk :
    let walk : Entry.Event := ⟨"9:00 AM", "walk - river"⟩
    let asking : Revision :=
      ⟨.timeline, [], ⟨.str "Sunday", .null, [], .null, [], [walk.element]⟩, .edit 0⟩
    '\n' ∉ "9am – walk - river".toList ∧ Entry.Event.read "9am – walk - river" = walk
      ∧ asking.editPrompt 0 walk.element = .ok [
        reply "Current: \"9:00 AM - walk - river\"",
        note "Enter new event (TIME - DESCRIPTION or just DESCRIPTION):"]
      ∧ ∀ world, (asking.answer "9:00 AM - walk - river" world).1.state
        = { asking with place := .menu } := by
  intro walk asking
  have hbreak : '\n' ∉ "9am – walk - river".toList := by decide
  have hread : Entry.Event.read "9am – walk - river" = walk := by decide +kernel
  have hshown : walk.shown "-" = "9:00 AM - walk - river" := by decide +kernel
  have hanswer : IsAnswer "9:00 AM - walk - river" := by decide +kernel
  obtain ⟨-, hstays⟩ := retyped_event_stays hbreak hread (List.mem_cons_self : "-" ∈ ["-", "–", "—"])
  rw [hshown] at hstays
  obtain ⟨-, hprompt, hsame⟩ := hstays asking 0 rfl rfl rfl
  rw [if_pos hanswer] at hsame
  exact ⟨hbreak, hread, hprompt, hsame⟩

end Revision
end Daybook
