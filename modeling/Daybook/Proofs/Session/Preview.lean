/-
The stand-in for an image on its way.

Once the file of an image has been selected, a stand-in for it heads the
memories shown.  One entry point puts it there and another takes it away;
in between every line goes to the form that is open, and the memories
behind the stand-in cannot change.  `Uploading` says when a form is past
its selection, and along every run the stand-in is shown just then
(`preview_shown_iff`).

For a form to be past its selection is the same as for its image to be
there (`uploads_iff`), and no line changes the image of a form.
-/
import Daybook.Proofs.Session.Fresh
import Daybook.Proofs.Session.SingleFlow

namespace Daybook

open Backend Http

-- ================================================================= forms

namespace Form

variable {form : Form} {world : World}

/-- Whether a form is that of an image and past its selection. -/
def Uploads (form : Form) : Prop := form.kind = .image ∧ form.step? ≠ some .select

theorem lastIndex_pos (kind : Entry.Kind) : 0 < lastIndex kind := by
  cases kind <;> decide

theorem index_saveFailed (h : 0 < form.index) (messages : List Message) (world : World)
    (e : CallError) : 0 < (form.saveFailed messages world e).1.state.index := by
  unfold saveFailed
  split
  · exact h
  · split
    · exact h
    · exact lastIndex_pos form.kind
    · exact h
    · exact lastIndex_pos form.kind

theorem index_save (h : 0 < form.index) (messages : List Message) (world : World) :
    0 < (form.save messages world).1.state.index := by
  unfold save
  split
  · exact h
  · exact index_saveFailed h _ _ _
  · exact h
  · exact lastIndex_pos form.kind

theorem index_advance (form : Form) (messages : List Message) (world : World) :
    0 < (form.advance messages world).1.state.index := by
  have hnext : 0 < form.index + 1 := Nat.succ_pos form.index
  unfold advance
  dsimp only
  split
  · exact hnext
  · exact index_save hnext messages world

/-- A form never goes back to its first step. -/
theorem index_answer (h : 0 < form.index) (line : String) (world : World) :
    0 < (form.answer line world).1.state.index := by
  unfold answer
  dsimp only
  split
  · exact h
  split
  · exact h
  split
  · split
    · exact h
    · exact index_advance form [] world
  split
  · exact index_advance _ [] world
  unfold answerStep
  split
  · exact h
  · exact h
  · exact h
  · dsimp only
    split
    · exact h
    · exact index_advance _ _ world

/-- What a file leads to is past the selection. -/
theorem index_deliver (hstep : form.step? = some .select) (name : String) (image : Content)
    (path : Option String) : 0 < (form.deliver name image path).state.index := by
  unfold deliver
  rw [if_pos hstep]
  dsimp only [Turn.go]
  split
  · exact Nat.succ_pos form.index
  · exact lastIndex_pos form.kind

theorem deliver_state (hstep : form.step? ≠ some .select) (name : String) (image : Content)
    (path : Option String) : (form.deliver name image path).state = form := by
  unfold deliver
  rw [if_neg hstep]
  rfl

/-- Only an image has its file, and only past the selection. -/
theorem past_of_image (h : form.Reachable) :
    form.draft.image.isSome = true → form.kind = .image ∧ 0 < form.index := by
  induction h with
  | start kind => exact fun himage => nomatch himage
  | picture kind description tags => exact fun himage => nomatch himage
  | answer hform line world _ ih =>
      obtain ⟨step, -, hanswers⟩ := answer_spec (sound_of_reachable hform) line world
      rw [hanswers.moves.image, hanswers.kind]
      intro himage
      obtain ⟨hkind, hindex⟩ := ih himage
      exact ⟨hkind, index_answer hindex line world⟩
  | @deliver form hform name image path ih =>
      by_cases hstep : form.step? = some .select
      · intro _
        refine ⟨?_, index_deliver hstep name image path⟩
        unfold deliver
        rw [if_pos hstep]
        exact (select_first hstep).1
      · rw [deliver_state hstep]
        exact ih

theorem uploads_iff (h : form.Reachable) : form.Uploads ↔ form.draft.image.isSome = true := by
  constructor
  · rintro ⟨hkind, hselect⟩
    obtain ⟨step, -, hstep⟩ := mem_of_index (sound_of_reachable h).index
    refine image_of_step (sound_of_reachable h) hstep (fun hsame => hselect ?_) hkind
    rw [← hsame]
    exact hstep
  · intro himage
    obtain ⟨hkind, hindex⟩ := past_of_image h himage
    exact ⟨hkind, fun hstep => Nat.ne_of_gt hindex (select_first hstep).2⟩

/-- A line takes no form past its selection, and none back to it. -/
theorem uploads_answer_iff (h : form.Reachable) {line : String}
    (hgo : (form.answer line world).1.ended = false) :
    (form.answer line world).1.state.Uploads ↔ form.Uploads := by
  obtain ⟨step, -, hanswers⟩ := answer_spec (sound_of_reachable h) line world
  rw [uploads_iff (h.answer line world hgo), uploads_iff h, hanswers.moves.image]

end Form

-- ============================================================== sessions

namespace Session

variable {session : Session} {world : World} {visible : List Json}

/-- Whether an image is on its way: its form is past the selection. -/
def Uploading (session : Session) : Prop := ∃ form, session.flow = .building form ∧ form.Uploads

/-- A session stays fresh until an image is on its way. -/
theorem fresh_take (hcoherent : session.Coherent) (h : session.Fresh)
    (hworld : NoMarks world.site world.wire) (input : Input)
    (hafter : ¬(session.take input world).session.Uploading) :
    (session.take input world).session.Fresh := by
  cases input with
  | line text =>
      unfold take handle
      dsimp only
      split
      · exact h
      · exact fresh_route h hworld _
  | busy text =>
      unfold take handleBusy
      dsimp only
      split <;> exact h
  | file name image path =>
      unfold take selectFile at hafter ⊢
      dsimp only at hafter ⊢
      split
      · next form hform =>
          rw [hform] at hafter
          dsimp only at hafter
          split
          · next hawaits =>
              rw [if_pos hawaits] at hafter
              split
              · exact h.go fun _ => Flow.noConfusion
              · next messages hreply =>
                  -- Here the file is taken, and with it the form is past its selection.
                  rw [hreply] at hafter
                  have himage := image_deliver (select_of_awaitsFile hform hawaits) name image path
                  refine absurd ⟨_, rfl, ?_⟩ hafter
                  refine (Form.uploads_iff ((hcoherent.form form hform).deliver name image path)).mpr ?_
                  rw [himage]
                  rfl
          · exact h
      · exact h

-- ================================================================== runs

/-- An image gets on its way by a file that a form waits for, and its
stand-in goes before what was shown. -/
theorem selected_of_take (hcoherent : session.Coherent) {input : Input}
    (hbefore : ¬session.Uploading) (hafter : (session.take input world).session.Uploading) :
    session.awaitsFile = true ∧ ∃ filename image path, input = .file filename image path
      ∧ (session.take input world).session.visible
        = previewOf (session.previews + 1) filename :: session.visible := by
  obtain ⟨form, hform, huploads⟩ := hafter
  cases (take_spec hcoherent input world).turned with
  | rests hflow hgate => exact absurd ⟨form, hflow ▸ hform, huploads⟩ hbefore
  | asks _ _ _ hflow =>
      rw [hflow] at hform
      cases hform
  | settles _ hflow => exact absurd hform (not_building hflow)
  | opens _ hreachable hnone hflow =>
      rw [hflow] at hform
      cases hform
      have himage := (Form.uploads_iff hreachable).mp huploads
      rw [hnone] at himage
      cases himage
  | @fills other line turn hother hturn hgo hflow =>
      rw [hflow] at hform
      cases hform
      subst hturn
      refine absurd ⟨other, hother, ?_⟩ hbefore
      exact (Form.uploads_answer_iff (hcoherent.form other hother) hgo).mp huploads
  | @delivers other name image path hinput hother hawaits =>
      subst hinput
      obtain ⟨-, messages, hreply⟩ :=
        Form.deliver_spec (Form.sound_of_reachable (hcoherent.form other hother)) name image path
      refine ⟨hawaits, name, image, path, rfl, ?_⟩
      unfold take selectFile
      dsimp only
      rw [hother]
      dsimp only
      rw [if_pos hawaits, hreply]
      rfl
  | leaves _ hflow => exact absurd hform (not_building hflow)

/-- While an image is on its way, what is shown does not change; and when
its form is over, only the stand-in is gone. -/
theorem take_of_uploading (hcoherent : session.Coherent) (h : session.Uploading) {number : Nat}
    {filename : String} (hvisible : session.visible = previewOf number filename :: visible)
    (hrest : ∀ value ∈ visible, Unmarked value) (input : Input) (world : World) :
    let after := (session.take input world).session
    after.Uploading ∧ after.visible = session.visible ∨ after.flow = .idle ∧ after.visible = visible := by
  obtain ⟨form, hform, huploads⟩ := h
  have hstays : session.Uploading ∧ session.visible = session.visible := ⟨⟨form, hform, huploads⟩, rfl⟩
  cases input with
  | line text =>
      unfold take handle
      dsimp only
      split
      · exact .inl hstays
      unfold route
      rw [hform]
      unfold fillIn
      dsimp only
      split
      · rw [hvisible, dropWhere_previewOf hrest]
        exact .inr ⟨rfl, rfl⟩
      · next hgo =>
          refine .inl ⟨⟨_, rfl, ?_⟩, rfl⟩
          exact (Form.uploads_answer_iff (hcoherent.form form hform)
            (Bool.eq_false_iff.mpr hgo)).mpr huploads
  | busy text =>
      unfold take handleBusy
      dsimp only
      split <;> exact .inl hstays
  | file name image path =>
      unfold take selectFile
      dsimp only
      rw [hform]
      dsimp only
      split
      · next hawaits => exact absurd (select_of_awaitsFile hform hawaits) huploads.2
      · exact .inl hstays

/-- Whether a file with some name was handed to a form that waited for it
when some memories were shown, and its image has been on its way since. -/
def Selected (past : List Step) (filename : String) (shown : List Json) : Prop :=
  Since past
    (fun step => step.before.awaitsFile = true
      ∧ (∃ image path, step.input = .file filename image path) ∧ step.before.visible = shown)
    (fun other => other.before.Uploading)

/-- The invariant: nothing bears the mark of a stand-in but the one at the
head while an image is on its way. -/
structure Clean (past : List Step) (session : Session) : Prop where
  fresh : ¬session.Uploading → session.Fresh
  selected : session.Uploading → ∃ number filename rest,
    session.visible = previewOf number filename :: rest ∧ (∀ value ∈ rest, Unmarked value)
      ∧ Selected past filename rest

theorem clean_of_run {username : String} {past : List Step} (h : Run username past session)
    (hpast : ∀ step ∈ past, NoMarks step.world.site step.world.wire) : Clean past session := by
  induction h with
  | start => exact ⟨fun _ => fresh_start username, fun ⟨_, hform, _⟩ => Flow.noConfusion hform⟩
  | @step past session hrun input world ih =>
      have hcoherent := coherent_of_run hrun
      have hnext := coherent_of_run (hrun.step input world)
      have hclean := ih fun step hmem => hpast step (List.mem_append_left _ hmem)
      have hworld := hpast _ (List.mem_append_right _ List.mem_cons_self)
      by_cases hbefore : session.Uploading
      · obtain ⟨number, filename, rest, hvisible, hrest, hselected⟩ := hclean.selected hbefore
        rcases take_of_uploading hcoherent hbefore hvisible hrest input world with
          ⟨hafter, hsame⟩ | ⟨hidle, hgone⟩
        · exact ⟨fun hnot => absurd hafter hnot, fun _ =>
            ⟨number, filename, rest, hsame.trans hvisible, hrest, hselected.later hbefore⟩⟩
        · have hpending := hnext.pending_eq_none (by rw [hidle]; exact Flow.noConfusion)
          refine ⟨fun _ => ⟨hgone ▸ hrest, fun action memory haction => ?_, fun revision hediting => ?_⟩,
            fun ⟨form, hform, _⟩ => absurd hform (not_building (.inl hidle))⟩
          · rw [hpending] at haction
            cases haction
          · rw [hidle] at hediting
            cases hediting
      · have hfresh := hclean.fresh hbefore
        refine ⟨fresh_take hcoherent hfresh hworld input, fun hafter => ?_⟩
        obtain ⟨hawaits, filename, image, path, hinput, hvisible⟩ :=
          selected_of_take hcoherent hbefore hafter
        exact ⟨_, filename, session.visible, hvisible, hfresh.visible,
          since_now ⟨hawaits, ⟨image, path, hinput⟩, rfl⟩⟩

/-- At every point of every run, as long as no answer of the backend bears
the mark of a stand-in: a stand-in is shown exactly while an image is on its
way.  Then it is the only one and comes first, and behind it is what was
shown when the file was selected.  Whatever the session is handed next, that
stays as it is, or the form is over and just the stand-in is gone. -/
theorem preview_shown_iff {username : String} {past : List Step} (h : Run username past session)
    (hpast : ∀ step ∈ past, NoMarks step.world.site step.world.wire) :
    ((∃ value ∈ session.visible, isPreview value = .ok true) ↔ session.Uploading)
      ∧ (session.Uploading → ∃ number filename rest,
        session.visible = previewOf number filename :: rest
          ∧ (∀ value ∈ rest, isPreview value = .ok false) ∧ Selected past filename rest
          ∧ ∀ input world,
            let after := (session.take input world).session
            after.Uploading ∧ after.visible = session.visible
              ∨ after.flow = .idle ∧ after.visible = rest) := by
  have hclean := clean_of_run h hpast
  refine ⟨⟨fun ⟨value, hmem, hmark⟩ => ?_, fun huploading => ?_⟩, fun huploading => ?_⟩
  · refine Classical.byContradiction fun hnot => ?_
    rw [isPreview_of_unmarked ((hclean.fresh hnot).visible value hmem)] at hmark
    cases hmark
  · obtain ⟨number, filename, rest, hvisible, -, -⟩ := hclean.selected huploading
    refine ⟨previewOf number filename, ?_, isPreview_previewOf number filename⟩
    rw [hvisible]
    exact List.mem_cons_self
  · obtain ⟨number, filename, rest, hvisible, hrest, hselected⟩ := hclean.selected huploading
    exact ⟨number, filename, rest, hvisible, fun value hmem => isPreview_of_unmarked (hrest value hmem),
      hselected, take_of_uploading (coherent_of_run h) huploading hvisible hrest⟩

/-- A picture on its way, in front of a memory that was created before. -/
theorem preview_shown_iff_sea :
    let site : Site := ⟨"http://api.test/api", none⟩
    let world : World := ⟨site, ⟨[.reply 200 ""], .lost, []⟩, ⟨"/home", [], []⟩, .writable⟩
    let noting : Step := ⟨Session.start "ada", .line "create memory: \"Sun\"", world⟩
    let opening : Step := ⟨noting.after, .line "save picture", world⟩
    let choosing : Step := ⟨opening.after, .file "sea.png" (.text "") none, world⟩
    let past := [noting, opening, choosing]
    Run "ada" past choosing.after ∧ (∀ step ∈ past, NoMarks step.world.site step.world.wire)
      ∧ choosing.after.Uploading
      ∧ ∃ value ∈ choosing.after.visible, isPreview value = .ok true := by
  intro site world noting opening choosing past
  have hrun : Run "ada" past choosing.after := ((Run.start.step _ world).step _ world).step _ world
  have hmarks : NoMarks site world.wire := by
    intro n content hcontent
    match n with
    | 0 =>
        cases hcontent
        exact marksNone_nil
    | n + 1 => cases hcontent
  have hpast : ∀ step ∈ past, NoMarks step.world.site step.world.wire := by
    intro step hmem
    have hworld : step.world = world := by
      simp only [past, List.mem_cons, List.not_mem_nil, or_false] at hmem
      rcases hmem with rfl | rfl | rfl <;> rfl
    rw [hworld]
    exact hmarks
  have huploading : choosing.after.Uploading := ⟨_, rfl, rfl, by decide +kernel⟩
  exact ⟨hrun, hpast, huploading, (preview_shown_iff hrun hpast).1.mpr huploading⟩

end Session
end Daybook
