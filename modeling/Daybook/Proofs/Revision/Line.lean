/-
What one line does to a revision.

`Taken` lists the inputs that are taken and what each makes of the working
copy, and `Passed` all that can come of a line that neither leaves the
revision nor saves it: the place stays, a choice is followed, an element is
picked for replacement, or an input is taken and leads back to the menu.
`take_passed` shows that the list is complete.  What holds along a revision
is read off the two lists and never off the inputs.

A revision that can be met from a memory is `Reachable`: opened, and taken
on by lines, whatever the backend answers in between.
-/
import Daybook.Proofs.Dialogue
import Daybook.Proofs.Exchange
import Daybook.Proofs.Revision.Move
import Daybook.Revision.Step

namespace Daybook.Revision

open Backend Http
open Message (note reply)
open Text (trimmed lowercase namesIn)

variable {revision : Revision} {text : String}

-- ============================================================== one line

/-- A row fitted to a width; items and events have none. -/
def fitted (width : Nat) : Element → Element
  | .row values => .row (Entry.fitRow (.str "") width values)
  | other => other

/-- What an input that is taken makes of the working copy. -/
inductive Taken (revision : Revision) (text : String) : Copy → Prop
  | title (hplace : revision.place = .title) :
    Taken revision text { revision.copy with title := .str text }
  | description (hplace : revision.place = .description) :
    Taken revision text { revision.copy with description := .str text }
  | columns (hplace : revision.place = .columns) {names : List String}
    (hnames : namesIn text = names) (hsome : names ≠ []) :
    Taken revision text { revision.copy with
      columns := names.map .ofText
      elements := revision.copy.elements.map (fitted names.length) }
  | added (hplace : revision.place = .add) {element : Element}
    (hread : revision.readElement text = .ok element) :
    Taken revision text { revision.copy with elements := revision.copy.elements ++ [element] }
  | replaced {index : Nat} (hplace : revision.place = .edit index) {element : Element}
    (hread : revision.readElement text = .ok element) :
    Taken revision text { revision.copy with elements := revision.copy.elements.set index element }
  | deleted (hplace : revision.place = .selectDelete) {index : Nat}
    (hindex : index < revision.copy.elements.length) :
    Taken revision text { revision.copy with elements := revision.copy.elements.eraseIdx index }
  | moved (hplace : revision.place = .reorder) {source target : Nat}
    (hsource : source < revision.copy.elements.length)
    (htarget : target < revision.copy.elements.length) :
    Taken revision text
      { revision.copy with elements := Daybook.moved source target revision.copy.elements }
  | tags (hplace : revision.place = .tags) (names : List String) :
    Taken revision text { revision.copy with tags := names.map .ofText }
  | category (hplace : revision.place = .category) {category : Json}
    (hnamed : category.orElse .null = category) :
    Taken revision text { revision.copy with category := category }

/-- What comes of a line that neither leaves a revision nor saves it. -/
inductive Passed (revision : Revision) (text : String) : Turn Revision → Prop
  | stays (reason : String) : Passed revision text (.go revision (.ok [note reason]))
  | chosen {item : MenuItem} (hplace : revision.place = .menu) (hitem : item ∈ menu revision.kind)
    (hallowed : revision.refusal? item.choice = none) :
    Passed revision text (.go { revision with place := placeOf item.choice }
      (shownOn { revision with place := placeOf item.choice } item.choice))
  | picked {index : Nat} {element : Element} (hplace : revision.place = .selectEdit)
    (helement : revision.copy.elements[index]? = some element) :
    Passed revision text (.go { revision with place := .edit index }
      (editPrompt { revision with place := .edit index } index element))
  | taken {copy : Copy} (htaken : Taken revision text copy) (answer : String) :
    Passed revision text (back { revision with copy := copy } (reply answer))

-- =============================================================== inputs

theorem atMenu_passed (hplace : revision.place = .menu) (word : String) :
    Passed revision text (revision.atMenu word) := by
  unfold atMenu
  split
  · next item hfind =>
      unfold choose
      split
      · exact .stays _
      · next hallowed => exact .chosen hplace (List.mem_of_find?_eq_some hfind) hallowed
  · exact .stays _

theorem takeColumns_passed (hplace : revision.place = .columns) (text : String) :
    Passed revision text (revision.takeColumns text) := by
  unfold takeColumns
  cases hnames : namesIn text with
  | nil => exact .stays _
  | cons name names => exact .taken (.columns hplace hnames (List.cons_ne_nil _ _)) _

theorem takeAdded_passed (hplace : revision.place = .add) (text : String) :
    Passed revision text (revision.takeAdded text) := by
  unfold takeAdded
  split
  · exact .stays _
  · next hread => exact .taken (.added hplace hread) _

theorem takeEdited_passed {index : Nat} (hplace : revision.place = .edit index) (text : String) :
    Passed revision text (revision.takeEdited index text) := by
  unfold takeEdited
  split
  · exact .stays _
  · next hread => exact .taken (.replaced hplace hread) _

theorem takeEditNumber_passed (hplace : revision.place = .selectEdit) (text : String) :
    Passed revision text (revision.takeEditNumber text) := by
  unfold takeEditNumber
  split
  · exact .stays _
  · split
    · exact .stays _
    · next helement => exact .picked hplace helement

/-- A number that is picked counts one of the elements. -/
theorem lt_of_pick? {index : Nat} (h : revision.pick? text = some index) :
    index < revision.copy.elements.length := by
  unfold pick? at h
  split at h
  · next number _ =>
      split at h
      · next hrange =>
          obtain ⟨hlow, hhigh⟩ := hrange
          have hindex : number.toNat - 1 = index := Option.some.inj h
          omega
      · cases h
  · cases h

theorem takeDeleteNumber_passed (hplace : revision.place = .selectDelete) (text : String) :
    Passed revision text (revision.takeDeleteNumber text) := by
  unfold takeDeleteNumber
  split
  · exact .stays _
  · next hpick => exact .taken (.deleted hplace (lt_of_pick? hpick)) _

theorem takeMove_passed (hplace : revision.place = .reorder) (text : String) :
    Passed revision text (revision.takeMove text) := by
  unfold takeMove
  dsimp only
  split
  · exact .stays _
  · next source target _ =>
      split
      · next hrange =>
          obtain ⟨hsource, hsource', htarget, htarget'⟩ := hrange
          have hfrom : source.toNat - 1 < revision.copy.elements.length := by omega
          have hto : target.toNat - 1 < revision.copy.elements.length := by omega
          rw [moveElement_eq hfrom hto]
          exact .taken (.moved hplace hfrom hto) _
      · exact .stays _

/-- A category that is taken is cleared or has a name. -/
theorem takeCategory_passed (hplace : revision.place = .category) (text : String) :
    Passed revision text (revision.takeCategory text) := by
  refine .taken (.category hplace ?_) _
  split
  · rfl
  · next hkept =>
      have hname : text ≠ "" := fun hempty => hkept (decide_eq_true (.inr hempty))
      exact if_neg fun hvacant => hname (JsonString.whole.inj (beq_iff_eq.mp hvacant))

/-- All that an input can come to. -/
theorem take_passed (revision : Revision) (text : String) :
    Passed revision text (revision.take text) := by
  unfold take
  split
  · next hplace => exact atMenu_passed hplace _
  · next hplace => exact .taken (.title hplace) _
  · next hplace => exact .taken (.description hplace) _
  · next hplace => exact takeColumns_passed hplace text
  · next hplace => exact takeAdded_passed hplace text
  · next hplace => exact takeEditNumber_passed hplace text
  · next hplace => exact takeEdited_passed hplace text
  · next hplace => exact takeDeleteNumber_passed hplace text
  · next hplace => exact takeMove_passed hplace text
  · next hplace => exact .taken (.tags hplace _) _
  · next hplace => exact takeCategory_passed hplace text

-- =============================================================== saving

/-- Saving goes on only after successes, and it stops at no fault. -/
theorem direct_send (revision : Revision) (site : Site) : Direct site (revision.send site) := by
  refine (direct_call _ _ _ _).bind fun _ => ?_
  dsimp only
  split
  · exact (direct_call _ _ _ _).bind fun _ => direct_pure _
  · exact direct_pure _

/-- Saving leaves the revision as it is, and there is always an answer. -/
theorem save_spec (revision : Revision) (world : World) :
    (revision.save world).1.state = revision
      ∧ ∃ messages, (revision.save world).1.reply = .ok messages := by
  obtain ⟨requests, -, htells⟩ := revision.direct_send world.site world.wire
  unfold save
  rw [World.run_eq]
  cases hresult : ((revision.send world.site).on world.wire).1 with
  | ok done => exact ⟨rfl, _, rfl⟩
  | error trouble =>
      rw [hresult] at htells
      cases trouble with
      | call e => exact ⟨rfl, _, rfl⟩
      | file e => exact htells.elim
      | fault f => exact htells.elim

/-- Saving is sending, whatever comes of it. -/
theorem world_save (revision : Revision) (world : World) :
    (revision.save world).2 = (world.run (revision.send world.site)).2 := by
  unfold save
  cases hrun : world.run (revision.send world.site) with
  | mk result after =>
      cases result with
      | ok done => rfl
      | error trouble => cases trouble <;> rfl

/-- What comes of a line. -/
inductive Answered (revision : Revision) (line : String) (world : World) :
    Turn Revision × World → Prop
  | leaves (hword : lowercase (trimmed line) ∈ cancelWords) (answer : String) :
    Answered revision line world (.stop revision [reply answer], world)
  | saves (hplace : revision.place = .menu) (hword : lowercase (trimmed line) = "save") :
    Answered revision line world (revision.save world)
  | passes {turn : Turn Revision} (hpassed : Passed revision (trimmed line) turn) :
    Answered revision line world (turn, world)

theorem answer_answered (revision : Revision) (line : String) (world : World) :
    Answered revision line world (revision.answer line world) := by
  unfold answer
  dsimp only
  split
  · next hword => exact .leaves hword _
  split
  · next hsave => exact .saves hsave.1 hsave.2
  · exact .passes (revision.take_passed _)

/-- Leaving and saving keep a revision as it is, so what every line keeps
that is passed on is kept by any line. -/
theorem answer_keeps {P : Revision → Prop} (h : P revision) {line : String}
    (hpassed : ∀ turn, Passed revision (trimmed line) turn → P turn.state) (world : World) :
    P (revision.answer line world).1.state := by
  have hanswered := revision.answer_answered line world
  generalize revision.answer line world = outcome at hanswered ⊢
  cases hanswered with
  | leaves => exact h
  | saves =>
      rw [(save_spec revision world).1]
      exact h
  | passes h => exact hpassed _ h

/-- A revision is of the same memory from its start to its end. -/
theorem memory_answer (revision : Revision) (line : String) (world : World) :
    (revision.answer line world).1.state.memory = revision.memory := by
  refine answer_keeps (P := fun next => next.memory = revision.memory) rfl (fun turn hpassed => ?_) world
  cases hpassed <;> rfl

-- ==================================================== reachable revisions

/-- A memory that can be opened names its kind, and its fields can be read. -/
theorem start_opened {memory : Record} {turn : Turn Revision} (h : start memory = .ok turn) :
    ∃ kind copy heading, Record.get memory "type" = .ofText kind.name
      ∧ Copy.load kind memory = .ok copy
      ∧ turn = .go ⟨kind, memory, copy, .menu⟩ (.ok (reply heading :: menuMessages kind)) := by
  unfold start at h
  split at h
  · split at h
    · next name htype _ kind hkind =>
        dsimp only at h
        rw [pure_bind] at h
        obtain ⟨copy, hload, h⟩ := ok_of_bind h
        cases h
        have hname : Record.get memory "type" = .ofText kind.name :=
          htype.trans (congrArg Json.ofText (Entry.Kind.name_of_ofName? hkind).symm)
        exact ⟨kind, copy, _, hname, hload, rfl⟩
    · cases h
  · cases h
  · cases h
  · cases h

/-- The revisions that can be met from a memory: opened, and then taken on
by lines. -/
inductive Reachable (memory : Record) : Revision → Prop
  | start {turn : Turn Revision} (h : start memory = .ok turn) : Reachable memory turn.state
  | answer {revision : Revision} (h : Reachable memory revision) (line : String) (world : World)
    (hgo : (revision.answer line world).1.ended = false) :
    Reachable memory (revision.answer line world).1.state

/-- Lines that only move a revision on lead to one that can be met, too. -/
theorem Reachable.follows {memory : Record} {next : Revision} {lines : List String}
    (h : Reachable memory revision) (hlines : Follows Revision.answer revision lines next) (world : World) :
    Reachable memory next := by
  induction hlines with
  | nil => exact h
  | step hanswer rest ih =>
      have hturn := congrArg Prod.fst (hanswer world)
      have hnext := h.answer _ world (congrArg Turn.ended hturn)
      rw [hturn] at hnext
      exact ih hnext

/-- What holds when a revision is opened, and is kept by every line that is
passed on, holds of all revisions that can be met. -/
theorem Reachable.induct {memory : Record} {P : Revision → Prop}
    (hstart : ∀ turn, Revision.start memory = .ok turn → P turn.state)
    (hpassed : ∀ revision, P revision → ∀ text turn, Passed revision text turn → P turn.state)
    (h : Reachable memory revision) : P revision := by
  induction h with
  | start h => exact hstart _ h
  | answer _ line world _ ih => exact answer_keeps ih (fun turn h => hpassed _ ih _ turn h) world

end Daybook.Revision
