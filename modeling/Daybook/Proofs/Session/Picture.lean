/-
A picture that is saved by its line.

The line says all that the form would ask for but the file, so the form goes
from the file straight to its confirmation (`deliver_told`), and only the line
that confirms it sends anything.  It uploads the file under its name.  If the
answer holds the memory of the picture that is all; otherwise one more request
records the picture with what the answer says of it (`picture_is_saved`).
-/
import Daybook.Proofs.Form.Script
import Daybook.Proofs.Instruction.Picture
import Daybook.Proofs.Outbox.Resend
import Daybook.Proofs.Session.Run

namespace Daybook

open Backend Http
open Text (trimmed)
open Instruction (Sayable pictureLine)

variable {description filename : String} {tags : List String} {image : Content} {path : Option String}
  {site : Site} {wire : Wire} {content : Record}

-- ============================================================== the draft

namespace Draft

/-- The draft of a picture whose line was read. -/
def told (description : String) (tags : List String) : Draft where
  fields := [("file", .null), ("filename", .null), ("file_path", .null), ("description", .ofText description),
    ("tags", .strings tags), ("album", .null)]
  image := none

/-- The draft once its file is there. -/
def chosen (description : String) (tags : List String) (filename : String) (image : Content)
    (path : Option String) : Draft where
  fields := [("file", .null), ("filename", .ofText filename), ("file_path", .ofOption path),
    ("description", .ofText description), ("tags", .strings tags), ("album", .null)]
  image := some image

/-- The fields that go with the image. -/
def toldForm (description : String) (tags : List String) : Record :=
  [("tags", .str (Json.strings tags).compose), ("description", .ofText description)]

/-- The memory of the picture, with what the answer to the upload says of
it. -/
def toldRecord (description : String) (tags : List String) (content : Record) : Record :=
  [("type", .str "image"), ("content", .ofText description), ("description", .ofText description),
    ("tags", .strings tags), ("album", .null), ("image_url", Record.get (withAddress content) "image_url"),
    ("image_id", Record.get content "id")]

theorem not_vacant (hne : description ≠ "") : (Json.ofText description).isVacant = false :=
  Bool.eq_false_iff.mpr fun hvacant => hne (JsonString.whole.inj (beq_iff_eq.mp hvacant))

theorem orElse_description (hne : description ≠ "") (other : Json) :
    (Json.ofText description).orElse other = .ofText description :=
  if_neg (Bool.eq_false_iff.mp (not_vacant hne))

theorem uploadForm_chosen (hne : description ≠ "") :
    (chosen description tags filename image path).uploadForm = toldForm description tags := by
  have hlist : ((Json.strings tags).orElse (.arr [])).orElse (.arr []) = .strings tags := by
    cases tags with
    | nil => rfl
    | cons tag tags => rfl
  show imageForm ((Json.ofText description).orElse .null) ((Json.strings tags).orElse (.arr [])) .null = _
  unfold imageForm
  rw [orElse_description hne, hlist, if_neg (Bool.eq_false_iff.mp (not_vacant hne))]
  rfl

theorem imageRecord_chosen (hne : description ≠ "") (content : Record) :
    (chosen description tags filename image path).imageRecord tags (withAddress content)
      = toldRecord description tags content := by
  have hid : Record.get (withAddress content) "id" = Record.get content "id" :=
    get_withAddress content (by decide)
  show ([("type", .str "image"),
      ("content", ((Json.ofText description).orElse (.str "")).orElse (.str "Image")),
      ("description", (Json.ofText description).orElse (.str "")), ("tags", .strings tags),
      ("album", .null), ("image_url", Record.get (withAddress content) "image_url"),
      ("image_id", Record.get (withAddress content) "id")] : Record) = _
  rw [orElse_description hne, orElse_description hne, hid]
  rfl

end Draft

-- =============================================================== the form

namespace Form

open Draft (told chosen)

/-- A description that says something is filled in, and so are the tags, if
there are any. -/
theorem start_told (hne : description ≠ "") (tags : List String) :
    start .image [("description", .ofOption (some description)), ("tags", .strings tags)]
      = ⟨.image, told description tags, 0⟩ := by
  have hgiven : (!(Json.ofText description).isUnset) = true :=
    congrArg (!·) (Draft.not_vacant hne : (Json.ofText description).isUnset = false)
  unfold start Draft.start
  rw [List.filter_cons_of_pos]
  · cases tags with
    | nil => rfl
    | cons tag tags => rfl
  · exact hgiven

/-- With the file the form goes to its confirmation. -/
theorem deliver_told (hne : description ≠ "") (tags : List String) (filename : String) (image : Content)
    (path : Option String) :
    (deliver ⟨.image, told description tags, 0⟩ filename image path).state
      = ⟨.image, chosen description tags filename image path, 4⟩ := by
  have hvacant : ((chosen description tags filename image path).get "description").isVacant = false :=
    Draft.not_vacant hne
  unfold deliver
  rw [if_pos (by rfl)]
  show (⟨.image, chosen description tags filename image path,
    if ((chosen description tags filename image path).get "description").isVacant then 1 else 4⟩ : Form) = _
  rw [hvacant]
  rfl

/-- The confirmation saves the draft. -/
theorem answer_save (draft : Draft) (world : World) :
    answer ⟨.image, draft, 4⟩ "save" world = save ⟨.image, draft, 5⟩ [] world := by
  have hline : IsAnswer "save" := by decide
  have htake : FormStep.confirm.take draft (trimmed "save") = .ok (.taken draft []) := by
    unfold FormStep.take
    rw [if_pos (by decide)]
  rw [answer_taken hline rfl (by decide) (by decide), answerStep_taken htake rfl]
  rfl

/-- A form that was saved is over. -/
theorem ended_save {draft : Draft} {memory : Record} {world : World}
    (h : ((draft.save world.site .image).on world.wire).1 = .ok memory) (index : Nat) :
    (save ⟨.image, draft, index⟩ [] world).1.ended = true := by
  unfold save
  dsimp only
  rw [World.run_eq, h]
  rfl

end Form

-- =========================================================== the requests

namespace Draft

variable {e : CallError}

theorem sent_save_error (hne : description ≠ "") (hname : filename ≠ "")
    (he : decode site (wire.answer 0) = .error e) :
    (((chosen description tags filename image path).save site .image).on wire).2.sent
      = wire.sent ++ [uploading site image filename (toldForm description tags)] := by
  have hsave : ((chosen description tags filename image path).saveImage site).on wire = _ :=
    on_saveImage_error hname rfl rfl he
  rw [uploadForm_chosen hne] at hsave
  show (((chosen description tags filename image path).saveImage site).on wire).2.sent = _
  rw [hsave]
  exact Wire.sent_send _ _

theorem on_save_chosen (hne : description ≠ "") (hname : filename ≠ "")
    (hcontent : decode site (wire.answer 0) = .ok content) :
    ((chosen description tags filename image path).save site .image).on wire
      = (match Record.get content "memory" with
        | .obj memory => pure memory
        | _ => site.createMemory (toldRecord description tags content)).on
          (wire.send (uploading site image filename (toldForm description tags))).2 := by
  have hsave : ((chosen description tags filename image path).saveImage site).on wire = _ :=
    on_saveImage rfl hname rfl rfl hcontent
  rwa [uploadForm_chosen hne, imageRecord_chosen hne] at hsave

/-- An answer that holds the memory of the picture is all that is needed. -/
theorem save_held {memory : Record} (hne : description ≠ "") (hname : filename ≠ "")
    (hcontent : decode site (wire.answer 0) = .ok content)
    (hmemory : Record.get content "memory" = .obj memory) :
    ((chosen description tags filename image path).save site .image).on wire
      = (.ok memory, (wire.send (uploading site image filename (toldForm description tags))).2) := by
  rw [on_save_chosen hne hname hcontent, hmemory]
  rfl

/-- Any other answer is followed by a request that records the picture. -/
theorem save_recorded (hne : description ≠ "") (hname : filename ≠ "")
    (hcontent : decode site (wire.answer 0) = .ok content)
    (hnone : ∀ memory, Record.get content "memory" ≠ .obj memory) :
    (((chosen description tags filename image path).save site .image).on wire).2.sent
        = wire.sent ++ [uploading site image filename (toldForm description tags),
          recording site (toldRecord description tags content)]
      ∧ ((∃ other, decode site (wire.answer 1) = .ok other) → ∃ memory,
        (((chosen description tags filename image path).save site .image).on wire).1 = .ok memory) := by
  have hon : ((chosen description tags filename image path).save site .image).on wire
      = (site.createMemory (toldRecord description tags content)).on
        (wire.send (uploading site image filename (toldForm description tags))).2 := by
    rw [on_save_chosen hne hname hcontent]
    split
    · next memory hmemory => exact absurd hmemory (hnone memory)
    · rfl
  rw [hon]
  refine ⟨?_, fun ⟨other, hother⟩ => ?_⟩
  · rw [sent_createMemory, Wire.sent_send, List.append_assoc]
    rfl
  · rw [← Wire.answer_send] at hother
    obtain ⟨memory, hmemory⟩ := on_createMemory (toldRecord description tags content) hother
    exact ⟨memory, by rw [hmemory]⟩

end Draft

-- ============================================================ the session

namespace Session

open Draft (told chosen toldForm toldRecord)

variable {session : Session}

/-- The line opens a form that waits for the file. -/
theorem take_pictureLine (h : Sayable description tags) (hidle : session.flow = .idle) (world : World) :
    (session.take (.line (pictureLine description tags)) world).session
        = { session with flow := .building ⟨.image, told description tags, 0⟩ }
      ∧ (session.take (.line (pictureLine description tags)) world).world = world := by
  have hread : Instruction.read (trimmed (pictureLine description tags))
      = .savePicture (some description) tags := by
    rw [Instruction.trimmed_pictureLine h, Instruction.read_pictureLine h]
  have hform := Form.start_told h.description_plain.1 tags
  unfold take
  dsimp only
  rw [handle_read hidle hread fun _ => Instruction.noConfusion]
  unfold carryOut openForm
  dsimp only
  rw [hform]
  exact ⟨rfl, rfl⟩

/-- The file takes the form to its confirmation. -/
theorem take_file (hne : description ≠ "")
    (hflow : session.flow = .building ⟨.image, told description tags, 0⟩) (filename : String)
    (image : Content) (path : Option String) (world : World) :
    (session.take (.file filename image path) world).session.flow
        = .building ⟨.image, chosen description tags filename image path, 4⟩
      ∧ (session.take (.file filename image path) world).world = world := by
  have hawaits : session.awaitsFile = true := by
    unfold awaitsFile
    rw [hflow]
    rfl
  have hdelivered := Form.deliver_told hne tags filename image path
  unfold take selectFile
  rw [hflow]
  dsimp only
  rw [if_pos hawaits]
  split
  · exact ⟨congrArg Flow.building hdelivered, rfl⟩
  · exact ⟨congrArg Flow.building hdelivered, rfl⟩

/-- A confirmed picture is saved, and then the form is over. -/
theorem take_save {draft : Draft} (hflow : session.flow = .building ⟨.image, draft, 4⟩) (world : World) :
    (session.take (.line "save") world).world.wire = ((draft.save world.site .image).on world.wire).2
      ∧ ∀ memory, ((draft.save world.site .image).on world.wire).1 = .ok memory →
        (session.take (.line "save") world).session.flow = .idle := by
  have hanswer := Form.answer_save draft world
  have htrim : trimmed "save" = "save" := by decide
  have hroute : session.route (trimmed "save") world = session.fillIn ⟨.image, draft, 4⟩ "save" world := by
    unfold route
    rw [hflow, htrim]
  unfold take
  dsimp only
  rw [handle_eq (by decide), hroute]
  dsimp only
  refine ⟨?_, fun memory hmemory => ?_⟩
  · rw [world_fillIn, hanswer, Form.wire_save]
  · have hended : (Form.answer ⟨.image, draft, 4⟩ "save" world).1.ended = true := by
      rw [hanswer]
      exact Form.ended_save hmemory 5
    exact flow_fillIn_over hended

/-- What a step does that saves a picture.  The file is uploaded under its name
with what the line says of it.  If the answer holds a memory nothing more is
sent; if it does not, the picture is recorded with the address and the id that
the answer names.  With all of this answered the form is over. -/
structure Step.SavesPicture (step : Step) (description : String) (tags : List String) (filename : String)
    (image : Content) : Prop where
  refused : ∀ e, decode step.world.site (step.world.wire.answer 0) = .error e →
    step.requests = [uploading step.world.site image filename (toldForm description tags)]
  held : ∀ content memory, decode step.world.site (step.world.wire.answer 0) = .ok content →
    Record.get content "memory" = .obj memory →
    step.requests = [uploading step.world.site image filename (toldForm description tags)]
      ∧ step.after.flow = .idle
  recorded : ∀ content, decode step.world.site (step.world.wire.answer 0) = .ok content →
    (∀ memory, Record.get content "memory" ≠ .obj memory) →
    step.requests = [uploading step.world.site image filename (toldForm description tags),
        recording step.world.site (toldRecord description tags content)]
      ∧ ((∃ other, decode step.world.site (step.world.wire.answer 1) = .ok other) →
        step.after.flow = .idle)

/-- The confirmation saves the picture. -/
theorem savesPicture_of_flow (hne : description ≠ "") (hname : filename ≠ "")
    (hflow : session.flow = .building ⟨.image, chosen description tags filename image path, 4⟩)
    (world : World) :
    (Step.mk session (.line "save") world).SavesPicture description tags filename image := by
  obtain ⟨hwire, hover⟩ := take_save hflow world
  have hsent {requests : List Request}
      (hsave : (((chosen description tags filename image path).save world.site .image).on world.wire).2.sent
        = world.wire.sent ++ requests) : (Step.mk session (.line "save") world).requests = requests := by
    rw [Step.requests_mk]
    exact World.requestsSince_of_sent ((congrArg Wire.sent hwire).trans hsave)
  rw [← Step.after_mk] at hover
  constructor
  case refused => exact fun e he => hsent (Draft.sent_save_error hne hname he)
  case held =>
    intro content memory hcontent hmemory
    have hsave : ((chosen description tags filename image path).save world.site .image).on world.wire = _ :=
      Draft.save_held hne hname hcontent hmemory
    refine ⟨hsent ?_, hover memory ?_⟩
    · rw [hsave]
      exact Wire.sent_send _ _
    · rw [hsave]
  case recorded =>
    intro content hcontent hnone
    obtain ⟨hsave, hsaved⟩ := Draft.save_recorded hne hname hcontent hnone
    refine ⟨hsent hsave, fun hother => ?_⟩
    obtain ⟨memory, hmemory⟩ := hsaved hother
    exact hover memory hmemory

/-- A picture is saved by its line, its file and a confirmation, and nothing is
sent before that. -/
theorem picture_is_saved (h : Sayable description tags) (hname : filename ≠ "") (hidle : session.flow = .idle)
    (image : Content) (path : Option String) (first second third : World) :
    let opening : Step := ⟨session, .line (pictureLine description tags), first⟩
    let choosing : Step := ⟨opening.after, .file filename image path, second⟩
    let saving : Step := ⟨choosing.after, .line "save", third⟩
    opening.requests = [] ∧ choosing.requests = []
      ∧ saving.SavesPicture description tags filename image := by
  intro opening choosing saving
  have hne := h.description_plain.1
  obtain ⟨hopened, hfirst⟩ := take_pictureLine h hidle first
  have hwaits : opening.after.flow = .building ⟨.image, told description tags, 0⟩ := by
    have hafter : opening.after = _ := Step.after_mk _ _ _
    rw [hafter, hopened]
  obtain ⟨hchosen, hsecond⟩ := take_file hne hwaits filename image path second
  have hconfirms : choosing.after.flow
      = .building ⟨.image, chosen description tags filename image path, 4⟩ := by
    have hafter : choosing.after = _ := Step.after_mk _ _ _
    rw [hafter, hchosen]
  have hopening : opening.requests = _ := Step.requests_mk _ _ _
  have hchoosing : choosing.requests = _ := Step.requests_mk _ _ _
  rw [hopening, hchoosing, hfirst, hsecond]
  exact ⟨World.requestsSince_of_wire rfl, World.requestsSince_of_wire rfl,
    savesPicture_of_flow hne hname hconfirms third⟩

theorem sayable_sea : Sayable "Sea" ["sun", "north coast"] where
  description_plain := ⟨by decide, Text.forall_mem_of_all (by decide)⟩
  tags_plain := fun tag hmem => by
    rcases List.mem_pair.mp hmem with rfl | rfl
    · exact ⟨by decide, by decide, Text.forall_mem_of_all (by decide)⟩
    · exact ⟨by decide, by decide, Text.forall_mem_of_all (by decide)⟩

theorem picture_is_saved_sea :
    let site : Site := ⟨"http://api.test/api", none⟩
    let world : World := ⟨site, ⟨[], .reply 200 "", []⟩, ⟨"/home", [], []⟩, .writable⟩
    let opening : Step := ⟨start "ada", .line (pictureLine "Sea" ["sun", "north coast"]), world⟩
    let choosing : Step := ⟨opening.after, .file "sea.png" (.text "waves") (some "sea.png"), world⟩
    let saving : Step := ⟨choosing.after, .line "save", world⟩
    Sayable "Sea" ["sun", "north coast"] ∧ "sea.png" ≠ "" ∧ (start "ada").flow = .idle
      ∧ opening.requests = [] ∧ choosing.requests = []
      ∧ saving.requests = [uploading site (.text "waves") "sea.png" (toldForm "Sea" ["sun", "north coast"]),
          recording site (toldRecord "Sea" ["sun", "north coast"] [])]
      ∧ saving.after.flow = .idle := by
  intro site world opening choosing saving
  have hname : "sea.png" ≠ "" := by decide
  have hidle : (start "ada").flow = .idle := rfl
  have hanswer (n : Nat) : decode site (world.wire.answer n) = .ok [] := by
    cases n <;> rfl
  obtain ⟨hopening, hchoosing, hsaving⟩ :=
    picture_is_saved sayable_sea hname hidle (.text "waves") (some "sea.png") world world world
  obtain ⟨hrequests, hover⟩ := hsaving.recorded [] (hanswer 0) fun memory hmemory => nomatch hmemory
  exact ⟨sayable_sea, hname, hidle, hopening, hchoosing, hrequests, hover ⟨[], hanswer 1⟩⟩

end Session
end Daybook
