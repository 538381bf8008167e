/-
Sending a queued entry again, and saving it in the first place.

Both put a form's draft on the wire, one from the draft and the other from
what the outbox gives back of it.  For a table, a list or a timeline it is
the same one request.  For an image the upload is the same, since what is
queued names the file that the image was read from (`uploadQueued_filed`),
and so is the record of it.  But saving leaves the record out if the
upload's answer holds a memory, and sending again does not look
(`resent_as_saved_iff`).
-/
import Daybook.Proofs.Form.Progress
import Daybook.Proofs.Outbox.Fifo

namespace Daybook

open Backend Http

variable {site : Site} {kind : Entry.Kind} {draft : Draft} {disk : Disk} {wire : Wire}

-- ============================================================== requests

/-- The request that creates a memory. -/
def recording (site : Site) (record : Record) : Request :=
  ⟨.post, site.base ++ "/memories", site.token, none, .json (.obj record)⟩

/-- The request that uploads an image. -/
def uploading (site : Site) (image : Content) (filename : String) (form : Record) : Request :=
  ⟨.post, site.base ++ "/images", site.token, none, .form filename image form⟩

theorem Backend.on_createMemory {content : Record} (payload : Record)
    (h : decode site (wire.answer 0) = .ok content) :
    ∃ memory, (site.createMemory payload).on wire
      = (.ok memory, (wire.send (recording site payload)).2) := by
  have hcall : (site.call .post "/memories" none (.json (.obj payload))).on wire
      = (.ok content, (wire.send (recording site payload)).2) := by
    rw [on_call, h]
    rfl
  unfold Site.createMemory
  rw [on_bind_ok hcall]
  split
  · exact ⟨_, rfl⟩
  · exact ⟨_, rfl⟩

theorem Backend.on_uploadImage {content : Record} (image : Content) (filename : String)
    (description tags album : Json) (h : decode site (wire.answer 0) = .ok content) :
    (site.uploadImage image filename description tags album).on wire
      = (.ok (withAddress content),
          (wire.send (uploading site image filename (imageForm description tags album))).2) := by
  have hcall : (site.call .post "/images" none
      (.form filename image (imageForm description tags album))).on wire
      = (.ok content,
          (wire.send (uploading site image filename (imageForm description tags album))).2) := by
    rw [on_call, h]
    rfl
  unfold Site.uploadImage
  rw [on_bind_ok hcall]
  rfl

theorem Backend.on_uploadImage_error {e : CallError} (image : Content) (filename : String)
    (description tags album : Json) (h : decode site (wire.answer 0) = .error e) :
    (site.uploadImage image filename description tags album).on wire
      = (.error (.call e),
          (wire.send (uploading site image filename (imageForm description tags album))).2) := by
  have hcall : (site.call .post "/images" none
      (.form filename image (imageForm description tags album))).on wire
      = (.error (.call e),
          (wire.send (uploading site image filename (imageForm description tags album))).2) := by
    rw [on_call, h]
    rfl
  unfold Site.uploadImage
  rw [on_bind_error hcall]

/-- The address of an image is all that is added to an answer. -/
theorem Backend.get_withAddress (content : Record) {key : JsonString} (h : "image_url" ≠ key) :
    Record.get (withAddress content) key = Record.get content key := by
  unfold withAddress
  split
  · exact Record.get_set_of_ne _ _ h
  · rfl

/-- Whether an answer is a success that holds a memory. -/
def HoldsMemory (site : Site) (answer : Answer) : Prop :=
  ∃ content memory, decode site answer = .ok content ∧ Record.get content "memory" = .obj memory

-- ================================================================ files

/-- A file that can be read has a name. -/
theorem Path.name_ne_empty {path : String} {image : Content}
    (h : disk.read (Path.ofString path) = .ok image) : (Path.ofString path).name ≠ "" := by
  have hparts : (Path.ofString path).parts ≠ [] := by
    intro hnone
    unfold Disk.read at h
    rw [hnone] at h
    dsimp only at h
    split at h
    · cases h
    · cases h
  have hname : (Path.ofString path).name ∈ (Path.ofString path).parts := by
    unfold Path.name
    rw [List.getLast?_eq_some_getLast hparts]
    exact List.getLast_mem hparts
  have hpart := (List.mem_filter.mp hname).2
  exact (of_decide_eq_true hpart).1

namespace Draft

/-- Whether the file that a draft names is in reach: it holds the image of
the draft, and its name is the draft's. -/
def Filed (disk : Disk) (draft : Draft) : Prop :=
  ∃ (path : String) (image : Content), draft.get "file_path" = .ofText path
    ∧ Path.holdsNull path = false ∧ disk.read (Path.ofString path) = .ok image
    ∧ draft.image = some image ∧ draft.get "filename" = .ofText (Path.ofString path).name

-- ============================================================== an image

/-- The fields that go with the image of a draft. -/
def uploadForm (draft : Draft) : Record :=
  imageForm ((draft.get "description").orElse .null) ((draft.get "tags").orElse (.arr []))
    (draft.get "album")

/-- A description that is empty goes with an image no more than one that is
not there. -/
theorem uploadForm_eq {tags : List String} (htags : draft.get "tags" = .strings tags) :
    imageForm ((draft.get "description").orElse (.str "")) (.strings tags) (draft.get "album")
      = draft.uploadForm := by
  have hlist : ((draft.get "tags").orElse (.arr [])).orElse (.arr [])
      = (Json.strings tags).orElse (.arr []) := by
    rw [htags]
    cases tags with
    | nil => rfl
    | cons tag tags => rfl
  unfold uploadForm imageForm
  rw [hlist]
  by_cases hvacant : (draft.get "description").isVacant = true
  · unfold Json.orElse
    rw [if_pos hvacant, if_pos hvacant]
    rfl
  · have hsaid : ∀ other, (draft.get "description").orElse other = draft.get "description" :=
      fun other => if_neg hvacant
    rw [hsaid, hsaid]

section image

variable {tags : List String} {path : String} {image : Content} {content : Record}

theorem text_filename {filename : String} (hname : filename ≠ "")
    (hfilename : draft.get "filename" = .ofText filename) :
    ((draft.get "filename").orElse (.str "image")).text = filename := by
  have hsaid : (Json.ofText filename).isVacant ≠ true := fun hvacant =>
    hname (JsonString.whole.inj (beq_iff_eq.mp hvacant))
  rw [hfilename]
  unfold Json.orElse
  rw [if_neg hsaid]
  rfl

/-- Saving an image uploads it, and records it if the answer does not hold a
memory. -/
theorem on_saveImage {filename : String} (htags : draft.get "tags" = .strings tags)
    (hname : filename ≠ "") (himage : draft.image = some image)
    (hfilename : draft.get "filename" = .ofText filename)
    (hcontent : decode site (wire.answer 0) = .ok content) :
    (draft.saveImage site).on wire
      = (match Record.get content "memory" with
        | .obj memory => pure memory
        | _ => site.createMemory (draft.imageRecord tags (withAddress content))).on
          (wire.send (uploading site image filename draft.uploadForm)).2 := by
  have hlist : (draft.get "tags").elementsOrNone = .ok (tags.map .ofText) := by
    rw [htags]
    exact Json.elementsOrNone_arr _
  have hmemory : Record.get (withAddress content) "memory" = Record.get content "memory" :=
    get_withAddress content (by decide)
  unfold saveImage
  dsimp only
  rw [text_filename hname hfilename, himage, on_bind_ok (on_uploadImage _ _ _ _ _ hcontent), hmemory,
    imagePayload_eq hlist]
  rfl

/-- An image that is not taken is not recorded. -/
theorem on_saveImage_error {filename : String} {e : CallError} (hname : filename ≠ "")
    (himage : draft.image = some image) (hfilename : draft.get "filename" = .ofText filename)
    (he : decode site (wire.answer 0) = .error e) :
    (draft.saveImage site).on wire
      = (.error (.call e), (wire.send (uploading site image filename draft.uploadForm)).2) := by
  unfold saveImage
  dsimp only
  rw [text_filename hname hfilename, himage, on_bind_error (on_uploadImage_error _ _ _ _ _ he)]
  rfl

/-- Sending a queued image again uploads it and records it. -/
theorem on_replayImage (htags : draft.get "tags" = .strings tags)
    (hpath : draft.get "file_path" = .ofText path) (hnull : Path.holdsNull path = false)
    (hvacant : (draft.get "file_path").isVacant = false)
    (hread : disk.read (Path.ofString path) = .ok image)
    (hcontent : decode site (wire.answer 0) = .ok content) :
    (Outbox.replay site true disk (Outbox.entry (.ofText "image")
        (.obj ((draft.imageRecord tags []).set "file_path" (draft.get "file_path"))))).on wire
      = (site.createMemory (draft.imageRecord tags (withAddress content)) >>= fun _ => pure ()).on
          (wire.send (uploading site image (Path.ofString path).name draft.uploadForm)).2 := by
  have hnamed : Outbox.readNamed disk (.ofText path) = .ok ((Path.ofString path).name, image) := by
    unfold Outbox.readNamed
    dsimp only
    rw [hnull, hread]
    rfl
  have hupload : (Outbox.uploadQueued site disk
        ((draft.imageRecord tags []).set "file_path" (draft.get "file_path"))).on wire
      = (.ok (draft.imageRecord tags (withAddress content)),
          (wire.send (uploading site image (Path.ofString path).name draft.uploadForm)).2) := by
    have hfile : Record.get ((draft.imageRecord tags []).set "file_path" (draft.get "file_path"))
        "file_path" = draft.get "file_path" := Record.get_set_self _ _ _
    have hrest : Record.erase ((draft.imageRecord tags []).set "file_path" (draft.get "file_path"))
        "file_path" = draft.imageRecord tags [] := rfl
    have hfound : Call.on (ExceptT.mk (pure (Outbox.readNamed disk (draft.get "file_path")))) wire
        = (.ok ((Path.ofString path).name, image), wire) := by
      rw [hpath, hnamed]
      rfl
    unfold Outbox.uploadQueued
    dsimp only
    rw [hfile, hrest, if_neg (Bool.eq_false_iff.mp hvacant), on_bind_ok hfound,
      on_bind_ok (on_uploadImage _ _ _ _ _ hcontent)]
    -- Here the form is made of the record that was queued, there of the draft.
    rw [← uploadForm_eq htags]
    rfl
  rw [Outbox.replay_entry, if_pos rfl, if_pos rfl, on_bind_ok hupload]

end image
end Draft

-- ======================================================= the whole outbox

namespace Outbox

/-- An entry that its line gives back waits alone in an outbox that was
empty. -/
theorem append_alone (kind : JsonString) {payload : Record} (hpayload : (Json.obj payload).Exact)
    (hdisk : Whole disk) (hempty : pending disk = .ok []) :
    ∃ queued, append .writable disk (.str kind) (.obj payload) = .ok queued
      ∧ pending queued = .ok [entry (.str kind) (.obj payload)] := by
  have hrecorded := recorded_entry kind hpayload
  refine ⟨_, if_pos hrecorded.writable, ?_⟩
  rw [pending_put_line hrecorded hdisk.stopsMidLine, hempty]
  rfl

theorem flush_alone {e : Json} {wire' : Wire} (hpending : pending disk = .ok [e])
    (hon : (replay site true disk e).on wire = (.ok (), wire')) :
    flush site true disk wire = (.ok ⟨1, 0⟩, keep disk [], wire') := by
  have hrun : (replayAll site true disk [e]).run wire = (.ok (1, []), wire') := replayAll_ok hon
  unfold flush
  rw [hpending]
  dsimp only
  rw [hrun]
  rfl

/-- A table, a list or a timeline is just created. -/
theorem replay_structured (hkind : kind ≠ .image) (payload : Record) :
    replay site true disk (entry (.ofText kind.name) (.obj payload))
      = (site.createMemory payload >>= fun _ => pure ()) := by
  have hname : JsonString.whole kind.name ≠ "image" := by
    cases kind with
    | image => exact absurd rfl hkind
    | _ => decide
  rw [replay_entry, if_neg hname]

end Outbox

namespace Draft

open Outbox (Whole pending append flush)

/-- The path of a file that can be read says something. -/
theorem isVacant_path {path : String} (hname : (Path.ofString path).name ≠ "") :
    (Json.ofText path).isVacant = false := by
  refine Bool.eq_false_iff.mpr fun hvacant => hname ?_
  have hempty : path = "" := JsonString.whole.inj (beq_iff_eq.mp hvacant)
  rw [hempty]
  decide

/-- Sending an image again makes the requests that saving it makes, and one
more if the answer to the upload holds a memory. -/
theorem resent_image (hfiled : draft.Filed disk)
    (hanswers : ∀ n, ∃ content, decode site (wire.answer n) = .ok content) {tags : List String}
    (htags : draft.get "tags" = .strings tags) :
    ∃ content memory resent, decode site (wire.answer 0) = .ok content
      ∧ ((draft.save site .image).on wire).1 = .ok memory
      ∧ (Outbox.replay site true disk (Outbox.entry (.ofText "image")
          (.obj ((draft.imageRecord tags []).set "file_path" (draft.get "file_path"))))).on wire
        = (.ok (), resent)
      ∧ resent.sent = ((draft.save site .image).on wire).2.sent
        ++ (match Record.get content "memory" with
          | .obj _ => [recording site (draft.imageRecord tags (withAddress content))]
          | _ => []) := by
  obtain ⟨path, image, hpath, hnull, hread, himage, hfilename⟩ := hfiled
  have hname := Path.name_ne_empty hread
  obtain ⟨content, hcontent⟩ := hanswers 0
  obtain ⟨content', hcontent'⟩ := hanswers 1
  -- Both go on from the upload, with the second answer.
  let upload := uploading site image (Path.ofString path).name draft.uploadForm
  have hnext : decode site ((wire.send upload).2.answer 0) = .ok content' := by
    rw [Wire.answer_send, hcontent']
  obtain ⟨recorded, hrecorded⟩ :=
    on_createMemory (draft.imageRecord tags (withAddress content)) hnext
  have hresent := (on_replayImage htags hpath hnull (hpath ▸ isVacant_path hname) hread hcontent).trans
    (on_bind_ok hrecorded)
  have hsave : (draft.save site .image).on wire = _ :=
    on_saveImage htags hname himage hfilename hcontent
  cases hmemory : Record.get content "memory" with
  | obj memory =>
      rw [hmemory] at hsave
      refine ⟨content, memory, _, hcontent, by rw [hsave]; rfl, hresent, ?_⟩
      rw [hsave, hmemory]
      exact Wire.sent_send _ _
  | _ =>
      rw [hmemory] at hsave
      have hrecord := hsave.trans hrecorded
      refine ⟨content, recorded, _, hcontent, by rw [hrecord], hresent, ?_⟩
      rw [hrecord, hmemory]
      exact (List.append_nil _).symm

-- ===================================================== saved and sent again

/-- What comes of saving a draft, and of queueing and flushing it, with the
same answers: both succeed, and the flush makes the requests of the save,
and possibly some more. -/
structure SentAgain (site : Site) (kind : Entry.Kind) (draft : Draft) (queued : Disk) (wire : Wire)
    (more : List Request) : Prop where
  saved : ∃ memory, ((draft.save site kind).on wire).1 = .ok memory
  flushed : (flush site true queued wire).1 = .ok ⟨1, 0⟩
  empty : (flush site true queued wire).2.1.get? Outbox.path = none
  sent : (flush site true queued wire).2.2.sent = ((draft.save site kind).on wire).2.sent ++ more

theorem sentAgain_structured {payload : Record} {queued : Disk} (hkind : kind ≠ .image)
    (hpayload : draft.structuredPayload kind = .ok payload)
    (hpending : pending queued = .ok [Outbox.entry (.ofText kind.name) (.obj payload)])
    (hanswers : ∀ n, ∃ content, decode site (wire.answer n) = .ok content) :
    SentAgain site kind draft queued wire [] := by
  obtain ⟨content, hcontent⟩ := hanswers 0
  obtain ⟨memory, hmemory⟩ := on_createMemory payload hcontent
  have hsave : (draft.save site kind).on wire
      = (.ok memory, (wire.send (recording site payload)).2) := by
    rw [save_structured site draft hkind, hpayload]
    exact hmemory
  have hreplay : (Outbox.replay site true queued
      (Outbox.entry (.ofText kind.name) (.obj payload))).on wire
      = (.ok (), (wire.send (recording site payload)).2) := by
    rw [Outbox.replay_structured hkind]
    exact on_bind_ok hmemory
  have hflush := Outbox.flush_alone hpending hreplay
  refine ⟨⟨memory, by rw [hsave]⟩, by rw [hflush], ?_, ?_⟩
  · rw [hflush]
    exact Outbox.get?_keep_nil queued
  · rw [hflush, hsave, List.append_nil]

theorem sentAgain_image {tags : List String} {queued : Disk} (htags : draft.get "tags" = .strings tags)
    (hpending : pending queued = .ok [Outbox.entry (.ofText "image")
      (.obj ((draft.imageRecord tags []).set "file_path" (draft.get "file_path")))])
    (hfiled : draft.Filed queued)
    (hanswers : ∀ n, ∃ content, decode site (wire.answer n) = .ok content) :
    ∃ content, decode site (wire.answer 0) = .ok content
      ∧ SentAgain site .image draft queued wire (match Record.get content "memory" with
        | .obj _ => [recording site (draft.imageRecord tags (withAddress content))]
        | _ => []) := by
  obtain ⟨content, memory, resent, hcontent, hsaved, hreplay, hsent⟩ :=
    resent_image hfiled hanswers htags
  have hflush := Outbox.flush_alone hpending hreplay
  refine ⟨content, hcontent, ⟨memory, hsaved⟩, by rw [hflush], ?_, ?_⟩
  · rw [hflush]
    exact Outbox.get?_keep_nil queued
  · rw [hflush]
    exact hsent

theorem ne_append_singleton (sent : List Request) (request : Request) : sent ++ [request] ≠ sent := by
  intro h
  have hlength := congrArg List.length h
  rw [List.length_append, List.length_singleton] at hlength
  omega

/-- Queueing a draft and flushing it makes the requests that saving it would
have made with the same answers, all of them successes, unless the draft is
an image and the answer to its upload holds a memory: then the image is
recorded once more. -/
theorem resent_as_saved_iff (hdraft : draft.Sound kind)
    (hpath : kind = .image → (draft.get "file_path").isVacant = false) (hdisk : Whole disk)
    (hempty : pending disk = .ok [])
    (hanswers : ∀ n, ∃ content, decode site (wire.answer n) = .ok content) :
    ∃ payload queued, draft.queuedPayload kind = .ok (some payload)
      ∧ append .writable disk (.ofText kind.name) payload = .ok queued
      ∧ ((kind = .image → draft.Filed queued) →
        (∃ more, SentAgain site kind draft queued wire more
          ∧ (more = [] ∨ ∃ content record, decode site (wire.answer 0) = .ok content
            ∧ draft.imagePayload (withAddress content) = .ok record
            ∧ more = [recording site record]))
        ∧ ((flush site true queued wire).2.2.sent = ((draft.save site kind).on wire).2.sent
          ↔ ¬(kind = .image ∧ HoldsMemory site (wire.answer 0)))) := by
  by_cases hkind : kind = .image
  · subst hkind
    obtain ⟨tags, htags⟩ := hdraft.tags
    have hlist : (draft.get "tags").elementsOrNone = .ok (tags.map .ofText) := by
      rw [htags]
      exact Json.elementsOrNone_arr _
    obtain ⟨queued, happend, hpending⟩ :=
      Outbox.append_alone "image" (exact_queuedImage hdraft tags) hdisk hempty
    refine ⟨_, queued, ?_, happend, fun hfiled => ?_⟩
    · unfold queuedPayload
      dsimp only
      rw [if_neg (Bool.eq_false_iff.mp (hpath rfl)), imagePayload_eq hlist]
      rfl
    obtain ⟨content, hcontent, hagain⟩ := sentAgain_image htags hpending (hfiled rfl) hanswers
    -- the one request more is there just if the answer holds a memory
    have hsent := hagain.sent
    refine ⟨⟨_, hagain, ?_⟩, ?_⟩
    · split
      · exact .inr ⟨content, _, hcontent, imagePayload_eq hlist _, rfl⟩
      · exact .inl rfl
    · cases hmemory : Record.get content "memory" with
      | obj memory =>
          rw [hmemory] at hsent
          rw [hsent]
          exact ⟨fun hsame => absurd hsame (ne_append_singleton _ _),
            fun hnone => absurd ⟨rfl, content, memory, hcontent, hmemory⟩ hnone⟩
      | _ =>
          rw [hmemory, List.append_nil] at hsent
          refine ⟨fun _ ⟨_, other, memory, hother, hheld⟩ => ?_, fun _ => hsent⟩
          rw [hcontent] at hother
          cases hother
          rw [hmemory] at hheld
          cases hheld
  · obtain ⟨payload, hpayload, hexact⟩ := structuredPayload_ok hdraft hkind
    obtain ⟨queued, happend, hpending⟩ := Outbox.append_alone kind.name hexact hdisk hempty
    have hagain := sentAgain_structured hkind hpayload hpending hanswers
    refine ⟨_, queued, ?_, happend, fun _ => ⟨⟨[], hagain, .inl rfl⟩, ?_⟩⟩
    · rw [queuedPayload_structured draft hkind, hpayload]
      rfl
    · exact ⟨fun _ himage => hkind himage.1, fun _ => hagain.sent.trans (List.append_nil _)⟩

-- ============================================================== one image

/-- An image that was read from a file. -/
def seaDraft : Draft where
  fields := [("file", .null), ("filename", .ofText "sea.png"), ("file_path", .ofText "sea.png"),
    ("description", .ofText "Sea"), ("tags", .arr []), ("album", .null)]
  image := some (.text "waves")

/-- The working directory with that file. -/
def seaDisk : Disk := ⟨"/home", [(⟨"", ["sea.png"]⟩, .text "waves")], []⟩

theorem sound_seaDraft : seaDraft.Sound .image where
  fits := by
    intro step hstep
    simp only [formSteps, List.mem_cons, List.not_mem_nil, or_false] at hstep
    rcases hstep with rfl | rfl | rfl | rfl | rfl
    · trivial
    · exact ⟨"Sea", rfl⟩
    · exact ⟨[], rfl⟩
    · exact ⟨none, rfl⟩
    · trivial
  path := ⟨some "sea.png", rfl⟩

/-- The file is there, whatever the outbox holds. -/
theorem read_seaDisk (content : Content) :
    (seaDisk.put Outbox.path content).read (Path.ofString "sea.png") = .ok (.text "waves") := by
  have hname : Path.ofString "sea.png" = ⟨"", ["sea.png"]⟩ := by decide +kernel
  have hshort : ¬4096 ≤ (Path.mk "" ["sea.png"]).text.utf8ByteSize := by decide +kernel
  have hpart : ¬255 < "sea.png".utf8ByteSize := by decide +kernel
  have hfile : (seaDisk.put Outbox.path content).isDirectory ⟨"", ["sea.png"]⟩ = false := by
    simp [Disk.isDirectory, Disk.put, seaDisk, Outbox.path]
  have hget : (seaDisk.put Outbox.path content).get? ⟨"", ["sea.png"]⟩ = some (.text "waves") :=
    (Disk.get?_put_of_ne seaDisk content (by decide)).trans rfl
  rw [hname]
  unfold Disk.read
  dsimp only
  rw [if_neg hshort]
  unfold Disk.walk
  dsimp only
  rw [if_neg (by decide), if_neg hpart, List.nil_append, hfile, if_neg Bool.false_ne_true, hget]
  rfl

theorem filed_seaDraft {payload : Json} {queued : Disk}
    (h : append .writable seaDisk (.ofText "image") payload = .ok queued) :
    seaDraft.Filed queued := by
  have hname : (Path.ofString "sea.png").name = "sea.png" := by decide +kernel
  refine ⟨"sea.png", .text "waves", rfl, by decide +kernel, ?_, rfl, ?_⟩
  · unfold append at h
    dsimp only at h
    split at h
    · cases h
      exact read_seaDisk _
    · cases h
  · rw [hname]
    rfl

theorem resent_as_saved_iff_sea :
    let site : Site := ⟨"http://api.test/api", none⟩
    let wire : Wire := ⟨[], .reply 200 "", []⟩
    seaDraft.Sound .image ∧ (seaDraft.get "file_path").isVacant = false ∧ Whole seaDisk
      ∧ pending seaDisk = .ok []
      ∧ (∀ n, ∃ content, decode site (wire.answer n) = .ok content)
      ∧ ∃ payload queued, seaDraft.queuedPayload .image = .ok (some payload)
        ∧ append .writable seaDisk (.ofText "image") payload = .ok queued
        ∧ seaDraft.Filed queued
        ∧ (flush site true queued wire).2.2.sent = ((seaDraft.save site .image).on wire).2.sent := by
  intro site wire
  have hmissing : seaDisk.get? Outbox.path = none := rfl
  have hanswers : ∀ n, ∃ content, decode site (wire.answer n) = .ok content := fun n => ⟨[], rfl⟩
  obtain ⟨payload, queued, hpayload, happend, hsame⟩ := resent_as_saved_iff sound_seaDraft
    (fun _ => rfl) (Outbox.whole_of_missing hmissing) rfl hanswers
  have hfiled := filed_seaDraft happend
  refine ⟨sound_seaDraft, rfl, Outbox.whole_of_missing hmissing, rfl, hanswers, payload, queued,
    hpayload, happend, hfiled, (hsame fun _ => hfiled).2.mpr fun ⟨_, content, memory, hcontent, hheld⟩ => ?_⟩
  cases hcontent
  cases hheld

/-- The answer to the upload holds a memory.  Saving leaves it at that, and
sending again makes another memory. -/
theorem image_recorded_again :
    let site : Site := ⟨"http://api.test/api", none⟩
    let wire : Wire := ⟨[.reply 200 "\x7b\"memory\": \x7b\x7d\x7d"], .reply 200 "", []⟩
    seaDraft.Sound .image ∧ pending seaDisk = .ok []
      ∧ (∀ n, ∃ content, decode site (wire.answer n) = .ok content)
      ∧ ∃ payload queued, seaDraft.queuedPayload .image = .ok (some payload)
        ∧ append .writable seaDisk (.ofText "image") payload = .ok queued
        ∧ seaDraft.Filed queued
        ∧ (flush site true queued wire).2.2.sent ≠ ((seaDraft.save site .image).on wire).2.sent := by
  intro site wire
  have hmissing : seaDisk.get? Outbox.path = none := rfl
  have hread : Json.parse "\x7b\"memory\": \x7b\x7d\x7d" = .ok (.obj [("memory", .obj [])]) := by
    have hwritten : "\x7b\"memory\": \x7b\x7d\x7d".toList
        = (Json.obj [("memory", .obj [])]).write := by decide +kernel
    unfold Json.parse
    rw [hwritten]
    exact Json.readText_write rfl rfl
  have hfirst : decode site (wire.answer 0) = .ok [("memory", .obj [])] := by
    show decode site (.reply 200 "\x7b\"memory\": \x7b\x7d\x7d") = _
    unfold decode
    dsimp only
    rw [if_neg (by decide), hread]
    rfl
  have hanswers : ∀ n, ∃ content, decode site (wire.answer n) = .ok content := by
    intro n
    cases n with
    | zero => exact ⟨_, hfirst⟩
    | succ n => exact ⟨[], rfl⟩
  have htags : seaDraft.get "tags" = .strings [] := rfl
  obtain ⟨queued, happend, hpending⟩ := Outbox.append_alone "image"
    (exact_queuedImage sound_seaDraft []) (Outbox.whole_of_missing hmissing) rfl
  obtain ⟨content, hcontent, hagain⟩ :=
    sentAgain_image htags hpending (filed_seaDraft happend) hanswers
  refine ⟨sound_seaDraft, rfl, hanswers, _, queued, rfl, happend, filed_seaDraft happend, ?_⟩
  rw [hfirst] at hcontent
  cases hcontent
  rw [hagain.sent]
  exact ne_append_singleton _ _

end Draft
end Daybook
