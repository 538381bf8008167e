/-
The outbox loses nothing and keeps the order: in every run of appends and
flushes, the entries that the backend took, followed by those that wait,
are the entries that were appended.

# What a flush does

A flush is described without its loop.  `deliver` sends entries in order
up to the first failure; a flush removes exactly what was delivered, and
beyond that it makes only the requests of the one entry that failed
(`flush_spec`).

# Where a flush stops at a fault

A fault in the middle of a flush leaves the file as it was, with the
entries before it delivered and still waiting.  So the law needs that no
queued entry can stop at a fault.  The one way is the path of an image: a
null character in it, or a lone surrogate that stands for no byte.  The
second is no null, and an outbox with such a path sends its first entries
again and again (`unencodable_path_redelivers`).
-/
import Daybook.Outbox.Flush
import Daybook.Proofs.Exchange
import Daybook.Proofs.Outbox.Pending

namespace Daybook.Outbox

open Backend Http

variable {site : Site} {images : Bool} {disk : Disk}

-- ========================================================== operations

/-- Something done with the outbox. -/
inductive Op where
  | append (kind : JsonString) (payload : Record)
  | flush (site : Site) (images : Bool)

/-- What an operation appends.  An entry without a text is refused. -/
def Op.appended : Op → List Json
  | .append kind payload =>
    if (entry (.str kind) (.obj payload)).isWritable then [entry (.str kind) (.obj payload)] else []
  | .flush _ _ => []

/-- Sends entries in order up to the first one that fails: those that the
backend took, and the wire behind them. -/
def deliver (site : Site) (images : Bool) (disk : Disk) : List Json → Wire → List Json × Wire
  | [], wire => ([], wire)
  | entry :: entries, wire =>
    match (replay site images disk entry).on wire with
    | (.ok (), wire) =>
      let (taken, wire) := deliver site images disk entries wire
      (entry :: taken, wire)
    | (.error _, _) => ([], wire)

/-- The wire once the first of the entries that are left has been sent; the
others are not. -/
def attempt (site : Site) (images : Bool) (disk : Disk) (left : List Json) (wire : Wire) : Wire :=
  match left with
  | [] => wire
  | entry :: _ => ((replay site images disk entry).on wire).2

/-- A run in its course: the files, the wire, and the entries that the
backend has taken. -/
structure Course where
  disk : Disk
  wire : Wire
  delivered : List Json

namespace Course

/-- The entries that the backend takes in a flush. -/
def flushed (course : Course) (site : Site) (images : Bool) : List Json :=
  match pending course.disk with
  | .ok entries => (deliver site images course.disk entries course.wire).1
  | .error _ => []

/-- One operation. -/
def step (course : Course) : Op → Course
  | .append kind payload =>
    match append .writable course.disk (.str kind) (.obj payload) with
    | .ok disk => { course with disk := disk }
    | .error (.unspelled _ disk) => { course with disk := disk }
    | .error (.unwritable _) => course
  | .flush site images =>
    let (_, disk, wire) := flush site images course.disk course.wire
    { disk := disk, wire := wire, delivered := course.delivered ++ course.flushed site images }

/-- Some operations, one after the other. -/
def run (course : Course) (ops : List Op) : Course := ops.foldl step course

end Course

-- =========================================================== no faults

/-- Whether a value is a path as text: a string without a null character,
whose lone surrogates all stand for bytes. -/
def IsPath (value : Json) : Prop :=
  ∃ s : JsonString, value = .str s ∧ Path.holdsNull s.text = false
    ∧ s.points.all Text.Point.isEncodable = true

/-- Whether an operation appends only what can be sent again: a plain
object, the path of an image in it being one. -/
def Op.Admitted : Op → Prop
  | .append kind payload => (Json.obj payload).isPlain = true
      ∧ (kind = "image" → ∀ value, payload.get? "file_path" = some value → IsPath value)
  | .flush _ _ => True

theorem readNamed_no_fault {value : Json} (h : IsPath value) (f : Fault) :
    readNamed disk value ≠ .error (.fault f) := by
  obtain ⟨s, rfl, hnull, hpoints⟩ := h
  cases s with
  | whole text =>
      show (if Path.holdsNull text then _ else _) ≠ _
      have htext : Path.holdsNull text = false := hnull
      rw [htext, if_neg Bool.false_ne_true]
      cases disk.read (Path.ofString text) with
      | ok image => exact fun h => by cases h
      | error e => exact fun h => by cases h
  | broken before lone after apart =>
      have hany : (JsonString.broken before lone after apart).points.any (!·.isEncodable)
          = false := by
        rw [← Bool.not_eq_true', List.not_any_eq_all_not]
        simpa using hpoints
      show (if (JsonString.broken before lone after apart).points.any _ then _ else _) ≠ _
      rw [hany, if_neg Bool.false_ne_true, hnull, if_neg Bool.false_ne_true]
      exact fun h => by cases h

/-- Sending a queued image again stops at no fault. -/
theorem faultless_uploadQueued {payload : Record}
    (h : ∀ value, payload.get? "file_path" = some value → IsPath value) :
    Faultless (uploadQueued site disk payload) := by
  unfold uploadQueued
  dsimp only
  split
  · exact stops_throw_call_bind _ _
  · next hvacant =>
      have hfile : IsPath (Record.get payload "file_path") := by
        unfold Record.get at hvacant ⊢
        cases hget : payload.get? "file_path" with
        | none =>
            rw [hget] at hvacant
            exact absurd rfl hvacant
        | some value => exact h value hget
      exact (stops_found (readNamed_no_fault hfile)).bind fun _ =>
        (direct_uploadImage _ _ _ _ _).stops.bind fun _ => stops_pure _

/-- The payload of an entry is sent again as its kind asks. -/
theorem replay_payload (kind : JsonString) (payload : Record) :
    replay site images disk (entry (.str kind) (.obj payload))
      = match Json.str kind with
        | .ofText "image" =>
          if images then uploadQueued site disk payload >>= fun payload =>
            site.createMemory payload >>= fun _ => pure ()
          else throw (unsent "No media store to upload queued image") >>= fun payload =>
            site.createMemory payload >>= fun _ => pure ()
        | _ => site.createMemory payload >>= fun _ => pure () := by
  have hpayload : payloadRecord (.obj payload) = .ok payload := by
    unfold payloadRecord
    split
    · next hvacant => rw [List.isEmpty_iff.mp hvacant]
    · rfl
  have hread : (do payloadRecord (← (entry (.str kind) (.obj payload)).field "payload"))
      = Except.ok payload := hpayload
  unfold replay
  rw [hread]
  rfl

/-- Sending an entry again is creating a memory from its payload; an image
is uploaded first. -/
theorem replay_entry (kind : JsonString) (payload : Record) :
    replay site images disk (entry (.str kind) (.obj payload))
      = (let record := fun payload => site.createMemory payload >>= fun _ => pure ()
        if kind = "image" then
          if images then uploadQueued site disk payload >>= record
          else throw (unsent "No media store to upload queued image") >>= record
        else record payload) := by
  rw [replay_payload]
  by_cases hkind : kind = "image"
  · rw [if_pos hkind, hkind]
    rfl
  · rw [if_neg hkind]
    split
    · next h => exact absurd (Json.str.inj h) hkind
    · rfl

/-- Sending an entry again that was admitted stops at no fault. -/
theorem faultless_replay {kind : JsonString} {payload : Record}
    (h : kind = "image" → ∀ value, payload.get? "file_path" = some value → IsPath value) :
    Faultless (replay site images disk (entry (.str kind) (.obj payload))) := by
  have hrecord : ∀ payload, Faultless (site.createMemory payload >>= fun _ => pure ()) :=
    fun payload => (direct_createMemory payload).stops.bind fun _ => stops_pure _
  rw [replay_entry]
  dsimp only
  split
  · next hkind =>
      split
      · exact (faultless_uploadQueued (h hkind)).bind hrecord
      · exact stops_throw_call_bind _ _
  · exact hrecord payload

-- ============================================================== a flush

section

variable {entry : Json} {entries : List Json} {wire wire' : Wire}

theorem deliver_ok (hon : (replay site images disk entry).on wire = (.ok (), wire')) :
    deliver site images disk (entry :: entries) wire
      = (entry :: (deliver site images disk entries wire').1,
          (deliver site images disk entries wire').2) := by
  rw [deliver, hon]

theorem deliver_error {trouble : Trouble}
    (hon : (replay site images disk entry).on wire = (.error trouble, wire')) :
    deliver site images disk (entry :: entries) wire = ([], wire) := by
  rw [deliver, hon]

/-- Behind an entry that was sent the others are. -/
theorem replayAll_ok (hon : (replay site images disk entry).on wire = (.ok (), wire')) :
    (replayAll site images disk (entry :: entries)).run wire
      = (((replayAll site images disk entries).run wire').1.map fun (sent, left) => (sent + 1, left),
          ((replayAll site images disk entries).run wire').2) := by
  have hrun : (replay site images disk entry).run wire = (.ok (), wire') := hon
  rw [replayAll, ExceptT.run, hrun]
  dsimp only
  cases (replayAll site images disk entries).run wire' with
  | mk result after => cases result <;> rfl

theorem replayAll_faulty {f : Fault}
    (hon : (replay site images disk entry).on wire = (.error (.fault f), wire')) :
    (replayAll site images disk (entry :: entries)).run wire = (.error f, wire') := by
  have hrun : (replay site images disk entry).run wire = (.error (.fault f), wire') := hon
  rw [replayAll, ExceptT.run, hrun]

theorem replayAll_failed {trouble : Trouble}
    (hon : (replay site images disk entry).on wire = (.error trouble, wire'))
    (h : ∀ f, trouble ≠ .fault f) :
    (replayAll site images disk (entry :: entries)).run wire
      = (.ok (0, entry :: entries), wire') := by
  have hrun : (replay site images disk entry).run wire = (.error trouble, wire') := hon
  rw [replayAll, ExceptT.run, hrun]
  cases trouble with
  | call e => rfl
  | file e => rfl
  | fault f => exact absurd rfl (h f)

end

/-- What sending entries again removes is what was delivered; beyond that
it sends the one entry that failed. -/
theorem replayAll_spec {entries : List Json}
    (h : ∀ entry ∈ entries, Faultless (replay site images disk entry)) (wire : Wire) :
    ∃ left, entries = (deliver site images disk entries wire).1 ++ left
      ∧ (replayAll site images disk entries).run wire
        = (.ok ((deliver site images disk entries wire).1.length, left),
            attempt site images disk left (deliver site images disk entries wire).2) := by
  induction entries generalizing wire with
  | nil => exact ⟨[], rfl, rfl⟩
  | cons entry entries ih =>
      cases hon : (replay site images disk entry).on wire with
      | mk result wire' =>
          cases result with
          | ok done =>
              obtain ⟨left, hsplit, hrun⟩ :=
                ih (fun other hmem => h other (List.mem_cons_of_mem entry hmem)) wire'
              refine ⟨left, ?_, ?_⟩
              · rw [deliver_ok hon, List.cons_append, ← hsplit]
              · rw [deliver_ok hon, List.length_cons, replayAll_ok hon, hrun]
                rfl
          | error trouble =>
              refine ⟨entry :: entries, by rw [deliver_error hon]; rfl, ?_⟩
              rw [deliver_error hon, attempt, hon]
              refine replayAll_failed hon fun f hfault => ?_
              have hno := h entry List.mem_cons_self wire f
              rw [hon, hfault] at hno
              exact hno rfl

theorem replayAll_fault {entries rest : List Json} {e : Json} {f : Fault} {wire wire' : Wire}
    (hsplit : entries = (deliver site images disk entries wire).1 ++ e :: rest)
    (hon : (replay site images disk e).on (deliver site images disk entries wire).2
      = (.error (.fault f), wire')) :
    (replayAll site images disk entries).run wire = (.error f, wire') := by
  induction entries generalizing wire with
  | nil => exact absurd hsplit (by simp [deliver])
  | cons entry entries ih =>
      cases hfirst : (replay site images disk entry).on wire with
      | mk result next =>
          cases result with
          | ok done =>
              rw [deliver_ok hfirst] at hsplit hon
              rw [replayAll_ok hfirst, ih (List.cons.inj hsplit).2 hon]
              rfl
          | error trouble =>
              rw [deliver_error hfirst] at hsplit hon
              rw [← (List.cons.inj hsplit).1] at hon
              exact replayAll_faulty hon

/-- A flush that stops at a fault leaves the file as it was, whatever the
backend took before. -/
theorem flush_at_fault {waiting rest : List Json} {e : Json} {f : Fault} {wire wire' : Wire}
    (hpending : pending disk = .ok waiting)
    (hsplit : waiting = (deliver site images disk waiting wire).1 ++ e :: rest)
    (hon : (replay site images disk e).on (deliver site images disk waiting wire).2
      = (.error (.fault f), wire')) :
    flush site images disk wire = (.error f, disk, wire') := by
  unfold flush
  rw [hpending]
  dsimp only
  rw [replayAll_fault hsplit hon]

/-- Whether an entry can wait in the outbox for good: its line gives it
back, and sending it again stops at no fault. -/
structure Lasting (e : Json) : Prop where
  recorded : Recorded e
  faultless : ∀ site images disk, Faultless (replay site images disk e)

/-- A flush of entries that last: it reports what it removed and what
waits afterwards, and leaves no file if nothing does. -/
theorem flush_spec {waiting : List Json} (hpending : pending disk = .ok waiting)
    (hlasting : ∀ e ∈ waiting, Lasting e) (site : Site) (images : Bool) (wire : Wire) :
    ∃ left, waiting = (deliver site images disk waiting wire).1 ++ left
      ∧ flush site images disk wire
        = (.ok ⟨(deliver site images disk waiting wire).1.length, left.length⟩, keep disk left,
            attempt site images disk left (deliver site images disk waiting wire).2) := by
  obtain ⟨left, hsplit, hrun⟩ :=
    replayAll_spec (fun e hmem => (hlasting e hmem).faultless site images disk) wire
  refine ⟨left, hsplit, ?_⟩
  unfold flush
  rw [hpending]
  dsimp only
  rw [hrun]

-- =============================================================== a run

theorem lasting_entry {kind : JsonString} {payload : Record}
    (h : (Op.append kind payload).Admitted)
    (hwritable : (entry (.str kind) (.obj payload)).isWritable = true) :
    Lasting (entry (.str kind) (.obj payload)) := by
  obtain ⟨hplain, hpath⟩ := h
  refine ⟨⟨?_, hwritable, _, rfl⟩, fun _ _ _ => faultless_replay hpath⟩
  rw [Json.isPlain] at hplain
  simp [entry, Json.isPlain, Json.fieldsPlain, hplain]

/-- The invariant of a run: the file holds whole lines and waiting entries
that last, and these continue what was delivered to what was appended. -/
structure Course.Keeps (course : Course) (appended waiting : List Json) : Prop where
  whole : Whole course.disk
  pending : pending course.disk = .ok waiting
  lasting : ∀ e ∈ waiting, Lasting e
  delivered : course.delivered ++ waiting = appended

/-- An entry that its line gives back is appended. -/
theorem step_append (course : Course) {kind : JsonString} {payload : Record} {waiting : List Json}
    (h : Recorded (entry (.str kind) (.obj payload))) (hwhole : Whole course.disk)
    (hpending : pending course.disk = .ok waiting) :
    ∃ disk, course.step (.append kind payload) = { course with disk := disk } ∧ Whole disk
      ∧ pending disk = .ok (waiting ++ [entry (.str kind) (.obj payload)]) := by
  refine ⟨course.disk.put path
    (addText (course.disk.get? path) (line (entry (.str kind) (.obj payload)))), ?_,
    whole_put_line _ _, ?_⟩
  · simp only [Course.step, append, if_pos h.writable]
  · rw [pending_put_line h hwhole.stopsMidLine, hpending]
    rfl

/-- Appending keeps the invariant, whether or not the entry is refused. -/
theorem keeps_append {course : Course} {appended waiting : List Json}
    (h : course.Keeps appended waiting) {kind : JsonString} {payload : Record}
    (hop : (Op.append kind payload).Admitted) :
    (course.step (.append kind payload)).Keeps (appended ++ (Op.append kind payload).appended)
      (waiting ++ (Op.append kind payload).appended) := by
  by_cases hwritable : (entry (.str kind) (.obj payload)).isWritable = true
  · have hlasting := lasting_entry hop hwritable
    have happended : (Op.append kind payload).appended = [entry (.str kind) (.obj payload)] :=
      if_pos hwritable
    obtain ⟨disk, hstep, hwhole, hpending⟩ := step_append course hlasting.recorded h.whole h.pending
    rw [hstep, happended]
    refine ⟨hwhole, hpending, ?_, ?_⟩
    · intro e hmem
      rcases List.mem_append.mp hmem with hmem | hmem
      · exact h.lasting e hmem
      · exact List.mem_singleton.mp hmem ▸ hlasting
    · rw [← h.delivered, List.append_assoc]
  · have hstep : course.step (.append kind payload)
        = { course with disk := course.disk.put path (addText (course.disk.get? path) "") } := by
      simp only [Course.step, append, if_neg hwritable]
    have happended : (Op.append kind payload).appended = [] := if_neg hwritable
    rw [hstep, happended, List.append_nil, List.append_nil]
    refine ⟨whole_put_nothing h.whole, ?_, h.lasting, h.delivered⟩
    show Outbox.pending (course.disk.put path _) = _
    rw [pending_put_nothing, h.pending]

/-- Flushing keeps the invariant: what it removes is delivered. -/
theorem keeps_flush {course : Course} {appended waiting : List Json}
    (h : course.Keeps appended waiting) (site : Site) (images : Bool) :
    ∃ left, (course.step (.flush site images)).Keeps appended left := by
  obtain ⟨left, hsplit, hflush⟩ := flush_spec h.pending h.lasting site images course.wire
  have hleft : ∀ e ∈ left, Lasting e := by
    intro e hmem
    apply h.lasting
    rw [hsplit]
    exact List.mem_append_right _ hmem
  have hrecorded : ∀ e ∈ left, Recorded e := fun e hmem => (hleft e hmem).recorded
  have hflushed : course.flushed site images
      = (deliver site images course.disk waiting course.wire).1 := by
    unfold Course.flushed
    rw [h.pending]
  have hstep : course.step (.flush site images)
      = ⟨keep course.disk left,
          attempt site images course.disk left
            (deliver site images course.disk waiting course.wire).2,
          course.delivered ++ (deliver site images course.disk waiting course.wire).1⟩ := by
    unfold Course.step
    dsimp only
    rw [hflush, hflushed]
  rw [hstep]
  refine ⟨left, whole_keep _ _, pending_keep hrecorded _, hleft, ?_⟩
  dsimp only
  rw [List.append_assoc, ← hsplit, h.delivered]

theorem keeps_run {course : Course} {appended waiting : List Json}
    (h : course.Keeps appended waiting) {ops : List Op} (hops : ∀ op ∈ ops, op.Admitted) :
    ∃ left, (course.run ops).Keeps (appended ++ ops.flatMap Op.appended) left := by
  induction ops generalizing course appended waiting with
  | nil =>
      refine ⟨waiting, ?_⟩
      rw [List.flatMap_nil, List.append_nil]
      exact h
  | cons op ops ih =>
      have hrest : ∀ other ∈ ops, other.Admitted := fun other hmem =>
        hops other (List.mem_cons_of_mem op hmem)
      have hstep : ∃ left, (course.step op).Keeps (appended ++ op.appended) left := by
        cases op with
        | append kind payload => exact ⟨_, keeps_append h (hops _ List.mem_cons_self)⟩
        | flush site images =>
            obtain ⟨left, hleft⟩ := keeps_flush h site images
            refine ⟨left, ?_⟩
            show Course.Keeps _ (appended ++ []) left
            rw [List.append_nil]
            exact hleft
      obtain ⟨left, hleft⟩ := hstep
      rw [List.flatMap_cons, ← List.append_assoc]
      exact ih hleft hrest

/-- The outbox loses nothing and keeps the order.  In every run that starts
without a file, what was delivered and what waits make up what was
appended; the next flush, to any site, removes what is delivered and
reports how much that is and how much waits afterwards, sends nothing
behind the entry that failed, and leaves no file if nothing waits. -/
theorem run_keeps_every_entry {disk : Disk} (hdisk : disk.get? path = none) (wire : Wire)
    {ops : List Op} (hops : ∀ op ∈ ops, op.Admitted) :
    ∃ waiting, pending ((Course.mk disk wire []).run ops).disk = .ok waiting
      ∧ ((Course.mk disk wire []).run ops).delivered ++ waiting = ops.flatMap Op.appended
      ∧ ∀ (site : Site) (images : Bool),
        let course := (Course.mk disk wire []).run ops
        let delivery := deliver site images course.disk waiting course.wire
        ∃ left after, waiting = delivery.1 ++ left
          ∧ flush site images course.disk course.wire
            = (.ok ⟨delivery.1.length, left.length⟩, after,
                attempt site images course.disk left delivery.2)
          ∧ pending after = .ok left ∧ (left = [] → after.get? path = none) := by
  have hstart : (Course.mk disk wire []).Keeps [] [] := by
    refine ⟨whole_of_missing hdisk, ?_, fun e hmem => absurd hmem List.not_mem_nil, rfl⟩
    unfold Outbox.pending
    dsimp only
    rw [hdisk]
  obtain ⟨waiting, hkeeps⟩ := keeps_run hstart hops
  refine ⟨waiting, hkeeps.pending, hkeeps.delivered, fun site images => ?_⟩
  obtain ⟨left, hsplit, hflush⟩ := flush_spec hkeeps.pending hkeeps.lasting site images
    ((Course.mk disk wire []).run ops).wire
  have hrecorded : ∀ e ∈ left, Recorded e := by
    intro e hmem
    refine (hkeeps.lasting e ?_).recorded
    rw [hsplit]
    exact List.mem_append_right _ hmem
  refine ⟨left, _, hsplit, hflush, pending_keep hrecorded _, ?_⟩
  intro hnil
  rw [hnil]
  exact get?_keep_nil _

-- ============================================================ one path

/-- A text that can wait in the outbox. -/
def textNote : Record := [("type", .str "text"), ("content", .str "A")]

/-- An image at some path. -/
def imageNote (path : JsonString) : Record :=
  [("type", .str "image"), ("content", .str "B"), ("file_path", .str path)]

/-- A text and an image at a path are appended and flushed. -/
def resend (path : JsonString) : List Op :=
  [.append "text" textNote, .append "image" (imageNote path),
    .flush ⟨"http://api.test/api", none⟩ true]

theorem recorded_textNote : Recorded (entry (.str "text") (.obj textNote)) :=
  ⟨by simp [entry, textNote, Json.isPlain, Json.fieldsPlain], rfl, _, rfl⟩

theorem recorded_imageNote (path : JsonString) :
    Recorded (entry (.str "image") (.obj (imageNote path))) :=
  ⟨by simp [entry, imageNote, Json.isPlain, Json.fieldsPlain], rfl, _, rfl⟩

theorem admitted_resend {path : JsonString} (h : IsPath (.str path)) :
    ∀ op ∈ resend path, op.Admitted := by
  intro op hmem
  simp only [resend, List.mem_cons, List.not_mem_nil, or_false] at hmem
  rcases hmem with rfl | rfl | rfl
  · refine ⟨by simp [textNote, Json.isPlain, Json.fieldsPlain], fun hkind => ?_⟩
    exact absurd hkind (by decide)
  · refine ⟨by simp [imageNote, Json.isPlain, Json.fieldsPlain], fun _ value hvalue => ?_⟩
    exact (Option.some.inj hvalue) ▸ h
  · trivial

/-- The text is delivered, and the image waits since its file is missing. -/
theorem run_keeps_every_entry_photo :
    (Disk.mk "/home" [] []).get? path = none ∧ (∀ op ∈ resend "photo.png", op.Admitted)
      ∧ ∃ waiting,
        let course := (Course.mk ⟨"/home", [], []⟩ ⟨[.reply 200 ""], .lost, []⟩ []).run
          (resend "photo.png")
        pending course.disk = .ok waiting
          ∧ course.delivered ++ waiting = (resend "photo.png").flatMap Op.appended := by
  have hops : ∀ op ∈ resend "photo.png", op.Admitted :=
    admitted_resend ⟨"photo.png", rfl, by decide, by decide⟩
  obtain ⟨waiting, hpending, hdelivered, -⟩ :=
    run_keeps_every_entry (rfl : (Disk.mk "/home" [] []).get? path = none)
      ⟨[.reply 200 ""], .lost, []⟩ hops
  exact ⟨rfl, hops, waiting, hpending, hdelivered⟩

/-- Without a null character is not enough.  A lone surrogate that stands
for no byte stops the flush at a fault, and the text that the backend has
taken waits again. -/
theorem unencodable_path_redelivers :
    let lone : JsonString := .broken "" 0 [] rfl
    let ops := resend lone
    let course := (Course.mk ⟨"/home", [], []⟩ ⟨[], .reply 200 "", []⟩ []).run ops
    Path.holdsNull lone.text = false
      ∧ (Json.obj textNote).isPlain = true ∧ (Json.obj (imageNote lone)).isPlain = true
      ∧ ∃ waiting, pending course.disk = .ok waiting
        ∧ course.delivered ++ waiting ≠ ops.flatMap Op.appended := by
  intro lone ops course
  let text := entry (.str "text") (.obj textNote)
  let image := entry (.str "image") (.obj (imageNote lone))
  let site : Site := ⟨"http://api.test/api", none⟩
  let begun : Course := ⟨⟨"/home", [], []⟩, ⟨[], .reply 200 "", []⟩, []⟩
  have hmissing : begun.disk.get? path = none := rfl
  obtain ⟨disk, hfirst, hwhole, hone⟩ :=
    step_append begun recorded_textNote (whole_of_missing hmissing) rfl
  obtain ⟨disk', hsecond, -, htwo⟩ :=
    step_append { begun with disk := disk } (recorded_imageNote lone) hwhole hone
  have hsplit : [text, image] = (deliver site true disk' [text, image] begun.wire).1 ++ [image] :=
    rfl
  have hflush := flush_at_fault htwo hsplit rfl
  have hcourse : course = Course.step ⟨disk', begun.wire, []⟩ (.flush site true) := by
    have hrun : course = ((begun.step (.append "text" textNote)).step
        (.append "image" (imageNote lone))).step (.flush site true) := by
      simp only [course, ops, resend, Course.run, List.foldl_cons, List.foldl_nil, begun, site]
    rw [hrun, hfirst, hsecond]
  have hstep : (Course.step ⟨disk', begun.wire, []⟩ (.flush site true)).disk = disk'
      ∧ (Course.step ⟨disk', begun.wire, []⟩ (.flush site true)).delivered = [text] := by
    unfold Course.step Course.flushed
    dsimp only
    rw [hflush, htwo]
    exact ⟨rfl, rfl⟩
  have happended : ops.flatMap Op.appended = [text, image] := rfl
  refine ⟨by decide, by simp [textNote, Json.isPlain, Json.fieldsPlain],
    by simp [imageNote, Json.isPlain, Json.fieldsPlain], [text, image], ?_, ?_⟩
  · rw [hcourse, hstep.1]
    exact htwo
  · rw [hcourse, hstep.2, happended]
    intro h
    exact absurd (congrArg List.length h) (by decide)

end Daybook.Outbox
