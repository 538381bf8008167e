/-
At most one dialogue goes on at a time.

The gate and the dialogue are kept side by side and change at different
moments.  Along every run they agree all the same (`SingleFlow`): the gate
holds an action just while a confirmation goes on, what it holds can be
carried out, and a form that is open stands at one of its steps.  An image
gets past its selection by a file alone: the session that waits for a file
was handed one, and the same form has been open since (`Delivered`).

So no slip of the diary can stop a step.  A confirmation is requested only
while the gate is empty, and a revision is opened only of a memory whose
type names a kind of entry.
-/
import Daybook.Proofs.Session.Run

namespace Daybook.Session

variable {username : String} {past : List Step} {session : Session}

-- ======================================================= delivered images

/-- Whether an image was handed to a form that waited for its file, and a
form with that image has been open since. -/
def Delivered (past : List Step) (image : Content) : Prop :=
  Since past
    (fun step => step.before.awaitsFile = true ∧ ∃ name path, step.input = .file name image path)
    (fun other => ∃ form, other.before.flow = .building form ∧ form.draft.image = some image)

theorem image_deliver {form : Form} (hstep : form.step? = some .select) (name : String)
    (image : Content) (path : Option String) :
    (form.deliver name image path).state.draft.image = some image := by
  unfold Form.deliver
  rw [if_pos hstep]
  rfl

theorem select_of_awaitsFile {form : Form} (hform : session.flow = .building form)
    (h : session.awaitsFile = true) : form.step? = some .select := by
  unfold awaitsFile at h
  rw [hform] at h
  exact (of_decide_eq_true h).2

/-- The image of a form that is open was delivered. -/
theorem delivered_of_run (h : Run username past session) {form : Form}
    (hform : session.flow = .building form) {image : Content}
    (himage : form.draft.image = some image) : Delivered past image := by
  induction h generalizing form with
  | start => cases hform
  | @step past session hrun input world ih =>
      have hcoherent := coherent_of_run hrun
      -- a form that was open with this image before the step goes on with it
      have hkeep : ∀ other, session.flow = .building other → other.draft.image = some image →
          Delivered (past ++ [⟨session, input, world⟩]) image :=
        fun other hother hsame => (ih hother hsame).later ⟨other, hother, hsame⟩
      cases (take_spec hcoherent input world).turned with
      | rests hflow hgate => exact hkeep form (hflow ▸ hform) himage
      | asks hinput hidle hasked hflow hgate =>
          rw [hflow] at hform
          cases hform
      | settles hconfirming hflow hgate => exact absurd hform (not_building hflow)
      | opens hidle hreachable hnone hflow hgate =>
          rw [hflow] at hform
          cases hform
          rw [hnone] at himage
          cases himage
      | @fills other line turn hother hturn hgo hflow hgate =>
          rw [hflow] at hform
          cases hform
          subst hturn
          obtain ⟨step, -, hanswers⟩ :=
            Form.answer_spec (Form.sound_of_reachable (hcoherent.form other hother)) line world
          exact hkeep other hother (hanswers.moves.image ▸ himage)
      | @delivers other name content path hinput hother hawaits hflow hgate =>
          rw [hflow] at hform
          cases hform
          rw [image_deliver (select_of_awaitsFile hother hawaits)] at himage
          cases himage
          exact since_now ⟨hawaits, name, path, hinput⟩
      | leaves hopen hflow hgate => exact absurd hform (not_building hflow)

-- ========================================================= the dialogues

/-- The dialogue, the gate and the forms of a session agree. -/
structure SingleFlow (past : List Step) (session : Session) : Prop where
  armed : session.gate.armed = true ↔ session.flow = .confirming
  deletion : ∀ kind deletion prompt,
    session.gate.pending = some ⟨kind, .delete deletion, prompt⟩ →
      kind = "delete" ∧ (deletion.everything = true ∨ deletion.tags ≠ []
        ∨ (∃ category, deletion.category = some category ∧ category ≠ "")
        ∨ ∃ id, deletion.id = some id ∧ id ≠ "")
  edit : ∀ kind memory prompt, session.gate.pending = some ⟨kind, .edit memory, prompt⟩ →
    kind = "edit" ∧ ∃ entry : Entry.Kind, Record.get memory "type" = .ofText entry.name
  index : ∀ form, session.flow = .building form → form.index < (formSteps form.kind).length
  image : ∀ form, session.flow = .building form → form.kind = .image →
    form.step? ≠ some .select →
      ∃ image, form.draft.image = some image ∧ Delivered past image

/-- A deletion that reaches something has a scope that says something. -/
theorem scope_of_plain {deletion : Deletion} (hplain : deletion.Plain) {scope : Scope}
    (h : deletion.scope? = some scope) :
    deletion.everything = true ∨ deletion.tags ≠ []
      ∨ (∃ category, deletion.category = some category ∧ category ≠ "")
      ∨ ∃ id, deletion.id = some id ∧ id ≠ "" := by
  unfold Deletion.scope? at h
  split at h
  · next heverything => exact .inl heverything
  split at h
  · next hfilter =>
      rcases hfilter with htags | hcategory
      · exact .inr (.inl htags)
      · obtain ⟨category, hcategory⟩ := Option.isSome_iff_exists.mp hcategory
        exact .inr (.inr (.inl ⟨category, hcategory, hplain.category category hcategory⟩))
  · obtain ⟨id, hid, -⟩ := Option.map_eq_some_iff.mp h
    exact .inr (.inr (.inr ⟨id, hid, (hplain.id id hid).1⟩))

theorem singleFlow_of_run (h : Run username past session) : SingleFlow past session := by
  have hcoherent := coherent_of_run h
  refine ⟨hcoherent.armed, fun kind deletion prompt hpending => ?_,
    fun kind memory prompt hpending => ?_, fun form hform => ?_, fun form hform hkind hselect => ?_⟩
  · obtain ⟨line, hasked⟩ := hcoherent.waiting _ hpending
    cases hasked with
    | delete hread hscope => exact ⟨rfl, scope_of_plain (Instruction.plain_of_read hread) hscope⟩
  · obtain ⟨line, hasked⟩ := hcoherent.waiting _ hpending
    cases hasked with
    | edit prompt htype => exact ⟨rfl, _, htype⟩
  · exact (Form.sound_of_reachable (hcoherent.form form hform)).index
  · have hsound := Form.sound_of_reachable (hcoherent.form form hform)
    have hpast : 0 < form.index := by
      refine Nat.pos_of_ne_zero fun hzero => hselect ?_
      unfold Form.step?
      rw [hzero, hkind]
      rfl
    obtain ⟨image, himage⟩ := Option.isSome_iff_exists.mp (hsound.image hkind hpast)
    exact ⟨image, himage, delivered_of_run h hform himage⟩

/-- At most one dialogue goes on at a time, along every run.  Hence no
confirmation is ever requested while another one waits, and no revision is
opened of a memory that has none. -/
theorem run_keeps_one_dialogue (h : Run username past session) :
    SingleFlow past session ∧ ∀ input world,
      (∀ kind, (session.take input world).reply ≠ .error (.alreadyWaiting kind))
        ∧ (session.take input world).reply ≠ .error .unknownKind
        ∧ (session.take input world).reply ≠ .error .missingField := by
  refine ⟨singleFlow_of_run h, fun input world => ?_⟩
  have hreply := (take_spec (coherent_of_run h) input world).reply
  refine ⟨fun kind hfault => ?_, fun hfault => ?_, fun hfault => ?_⟩
  · exact Bool.false_ne_true (hreply _ hfault)
  · exact Bool.false_ne_true (hreply _ hfault)
  · exact Bool.false_ne_true (hreply _ hfault)

/-- A picture that is saved, up to its file. -/
theorem run_keeps_one_dialogue_picture :
    let world : World := ⟨⟨"http://api.test/api", none⟩, ⟨[], .lost, []⟩, ⟨"/home", [], []⟩, .writable⟩
    let opening : Step := ⟨Session.start "ada", .line "save picture", world⟩
    let choosing : Step := ⟨opening.after, .file "sea.png" (.text "") none, world⟩
    Run "ada" [opening, choosing] choosing.after ∧ SingleFlow [opening, choosing] choosing.after
      ∧ ∀ input world,
        (∀ kind, (choosing.after.take input world).reply ≠ .error (.alreadyWaiting kind))
          ∧ (choosing.after.take input world).reply ≠ .error .unknownKind
          ∧ (choosing.after.take input world).reply ≠ .error .missingField := by
  intro world opening choosing
  have hopened : Run "ada" [opening] opening.after := .step .start (.line "save picture") world
  have hrun : Run "ada" [opening, choosing] choosing.after :=
    hopened.step (.file "sea.png" (.text "") none) world
  exact ⟨hrun, run_keeps_one_dialogue hrun⟩

end Daybook.Session
