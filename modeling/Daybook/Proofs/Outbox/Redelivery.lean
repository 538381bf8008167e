/-
Which entries a flush sends a second time.

A flush writes the file anew only behind its loop.  If it returns, the lines
that are left are those of the entries behind the delivered ones
(`queued_keep`); if a fault stops it, the file is as it was, and the entries
that were delivered before are in it still.  `delivered_leave_iff` counts both:
the requests that create a memory and are answered with a success, and the
lines of the file before and after.

The count of the requests is kept along the actions.  `Creates n` says of an
action that it has `n` such requests if it succeeds, and none if it does not;
an entry that is sent again has just one, its last.
-/
import Daybook.Proofs.Outbox.Fifo

namespace Daybook.Backend

open Http

variable {α β : Type} {site : Site} {n : Nat}

-- ============================================================== creating

/-- The requests that create a memory and are answered with a success, among
those made on a wire. -/
def created (site : Site) : List Request → Wire → List Request
  | [], _ => []
  | request :: requests, wire =>
    let rest := created site requests (wire.send request).2
    if request.url = site.base ++ "/memories" ∧ (decode site (wire.answer 0)).isOk then
      request :: rest
    else rest

theorem created_append (first second : List Request) (wire : Wire) :
    created site (first ++ second) wire
      = created site first wire ++ created site second (wire.sendAll first) := by
  induction first generalizing wire with
  | nil => rfl
  | cons request first ih =>
      rw [List.cons_append, created, created, ih]
      split
      · rfl
      · rfl

/-- Whether an action creates `n` memories if it succeeds, and none if it
does not. -/
def Creates (site : Site) (n : Nat) (action : Call α) : Prop :=
  ∀ wire : Wire, ∃ requests, (action.on wire).2 = wire.sendAll requests
    ∧ (created site requests wire).length = if (action.on wire).1.isOk then n else 0

theorem creates_pure (a : α) : Creates site 0 (pure a : Call α) := fun _ => ⟨[], rfl, rfl⟩

theorem creates_throw (trouble : Trouble) : Creates site n (throw trouble : Call α) :=
  fun _ => ⟨[], rfl, rfl⟩

theorem creates_found (found : Except Trouble α) :
    Creates site 0 (ExceptT.mk (pure found) : Call α) := fun _ => ⟨[], rfl, (ite_self 0).symm⟩

theorem creates_ofExcept (value : Except Fault α) : Creates site 0 (Call.ofExcept value) := by
  cases value with
  | ok a => exact creates_pure a
  | error f => exact creates_throw (.fault f)

theorem creates_call {method : Method} {path : String} {query : Option Record} {body : Body}
    (hpath : path ≠ "/memories") : Creates site 0 (site.call method path query body) := by
  intro wire
  have hurl : site.base ++ path ≠ site.base ++ "/memories" := fun h =>
    hpath (String.append_right_inj _ |>.mp h)
  refine ⟨[⟨method, site.base ++ path, site.token, query, body⟩], ?_, ?_⟩
  · rw [on_call]
    rfl
  · rw [ite_self, created]
    dsimp only
    rw [if_neg fun h => hurl h.1]
    rfl

/-- An action that creates nothing may stand before another one. -/
theorem Creates.bind {action : Call α} {next : α → Call β} (h : Creates site 0 action)
    (hnext : ∀ a, Creates site n (next a)) : Creates site n (action >>= next) := by
  intro wire
  obtain ⟨requests, hwire, hnone⟩ := h wire
  rw [ite_self] at hnone
  cases hon : action.on wire with
  | mk result wire' =>
      rw [hon] at hwire
      dsimp only at hwire
      cases result with
      | error trouble =>
          rw [on_bind_error hon]
          exact ⟨requests, hwire, hnone⟩
      | ok a =>
          obtain ⟨more, hmore, hcount⟩ := hnext a wire'
          rw [on_bind_ok hon]
          refine ⟨requests ++ more, ?_, ?_⟩
          · rw [hmore, hwire, Wire.sendAll_append]
          · rw [created_append, List.length_append, hnone, Nat.zero_add, ← hcount, hwire]

/-- A result that is only looked at changes no count. -/
theorem Creates.map {action : Call α} (h : Creates site n action) (f : α → β) :
    Creates site n (action >>= fun a => pure (f a)) := by
  intro wire
  obtain ⟨requests, hwire, hcount⟩ := h wire
  refine ⟨requests, ?_⟩
  cases hon : action.on wire with
  | mk result wire' =>
      rw [hon] at hwire hcount
      cases result with
      | error trouble =>
          rw [on_bind_error hon]
          exact ⟨hwire, hcount⟩
      | ok a =>
          rw [on_bind_ok hon]
          exact ⟨hwire, hcount⟩

theorem creates_createMemory (payload : Record) :
    Creates site 1 (site.createMemory payload) := by
  intro wire
  let request : Request := ⟨.post, site.base ++ "/memories", site.token, none, .json (.obj payload)⟩
  have hcall : (site.call .post "/memories" none (.json (.obj payload))).on wire
      = ((decode site (wire.answer 0)).mapError .call, (wire.send request).2) := on_call _ _ _ _ _
  refine ⟨[request], ?_⟩
  unfold Site.createMemory
  cases hdecode : decode site (wire.answer 0) with
  | ok content =>
      rw [hdecode] at hcall
      have hcreated : created site [request] wire = [request] := by
        rw [created, hdecode]
        exact if_pos ⟨rfl, rfl⟩
      rw [on_bind_ok hcall, hcreated]
      split <;> exact ⟨rfl, rfl⟩
  | error e =>
      rw [hdecode] at hcall
      have hcreated : created site [request] wire = [] := by
        rw [created, hdecode]
        exact if_neg fun h => absurd h.2 Bool.false_ne_true
      rw [on_bind_error hcall, hcreated]
      exact ⟨rfl, rfl⟩

end Daybook.Backend

namespace Daybook.Outbox

open Backend Http
open Text (trim lines cut cut_append_separator cut_of_not_mem)

variable {site : Site} {images : Bool} {disk : Disk}

-- ============================================================ one entry

theorem creates_uploadQueued (payload : Record) :
    Creates site 0 (uploadQueued site disk payload) := by
  have hupload : ∀ image filename description tags album,
      Creates site 0 (site.uploadImage image filename description tags album) :=
    fun _ _ _ _ _ => (creates_call (by decide)).bind fun _ => creates_pure _
  unfold uploadQueued
  dsimp only
  split
  · exact (creates_throw _).bind fun _ => (creates_found _).bind fun _ =>
      (hupload _ _ _ _ _).bind fun _ => creates_pure _
  · exact (creates_found _).bind fun _ => (hupload _ _ _ _ _).bind fun _ => creates_pure _

/-- An entry that is sent again creates one memory, unless it fails. -/
theorem creates_replay (site : Site) (images : Bool) (disk : Disk) (entry : Json) :
    Creates site 1 (replay site images disk entry) := by
  have hrecord : ∀ payload, Creates site 1 (site.createMemory payload >>= fun _ => pure ()) :=
    fun payload => (creates_createMemory payload).map fun _ => ()
  unfold replay
  refine (creates_ofExcept _).bind fun payload => (creates_ofExcept _).bind fun kind => ?_
  dsimp only
  split
  · split
    · exact (creates_uploadQueued payload).bind hrecord
    · exact (creates_throw _).bind hrecord
  · exact hrecord payload

-- ============================================================== a flush

/-- Sending entries again creates as many memories as are delivered, whether
or not a fault stops it; without one it gives back the others. -/
theorem replayAll_created (site : Site) (images : Bool) (disk : Disk) (entries : List Json)
    (wire : Wire) :
    ∃ requests, ((replayAll site images disk entries).run wire).2 = wire.sendAll requests
      ∧ (created site requests wire).length = (deliver site images disk entries wire).1.length
      ∧ ∀ sent left, ((replayAll site images disk entries).run wire).1 = .ok (sent, left) →
        sent = (deliver site images disk entries wire).1.length
          ∧ entries = (deliver site images disk entries wire).1 ++ left := by
  induction entries generalizing wire with
  | nil =>
      refine ⟨[], rfl, rfl, fun sent left h => ?_⟩
      cases h
      exact ⟨rfl, rfl⟩
  | cons entry entries ih =>
      obtain ⟨first, hfirst, hcount⟩ := creates_replay site images disk entry wire
      cases hon : (replay site images disk entry).on wire with
      | mk result wire' =>
          rw [hon] at hfirst hcount
          dsimp only at hfirst hcount
          cases result with
          | ok done =>
              obtain ⟨rest, hrest, hcreated, hok⟩ := ih wire'
              have hone : (created site first wire).length = 1 := hcount
              rw [replayAll_ok hon, deliver_ok hon]
              dsimp only
              refine ⟨first ++ rest, ?_, ?_, fun sent left h => ?_⟩
              · rw [Wire.sendAll_append, ← hfirst, hrest]
              · rw [created_append, ← hfirst, List.length_append, hone, hcreated, List.length_cons,
                  Nat.add_comm]
              · cases hmore : ((replayAll site images disk entries).run wire').1 with
                | error f =>
                    rw [hmore] at h
                    cases h
                | ok found =>
                    rw [hmore] at h
                    cases h
                    obtain ⟨hsent, hsplit⟩ := hok _ _ hmore
                    exact ⟨by rw [hsent, List.length_cons], by rw [List.cons_append, ← hsplit]⟩
          | error trouble =>
              rw [deliver_error hon]
              by_cases hfault : ∃ f, trouble = .fault f
              · obtain ⟨f, rfl⟩ := hfault
                rw [replayAll_faulty hon]
                exact ⟨first, hfirst, hcount, fun _ _ h => nomatch h⟩
              · rw [replayAll_failed hon fun f hsame => hfault ⟨f, hsame⟩]
                refine ⟨first, hfirst, hcount, fun sent left h => ?_⟩
                cases h
                exact ⟨rfl, rfl⟩

-- ============================================================= the file

/-- The lines of the outbox that are not blank, as far as it can be read. -/
def queued (disk : Disk) : List (List Char) :=
  match disk.get? path with
  | some (.text text) =>
    ((lines (unifyBreaks text.toList)).map trim).filter fun row => !row.isEmpty
  | _ => []

theorem length_entriesOf {rows : List (List Char)} {entries : List Json}
    (h : entriesOf rows = .ok entries) :
    entries.length ≤ ((rows.map trim).filter fun row => !row.isEmpty).length := by
  induction rows generalizing entries with
  | nil =>
      cases h
      exact Nat.zero_le _
  | cons row rows ih =>
      unfold entriesOf at h
      dsimp only at h
      rw [List.map_cons, List.filter_cons]
      split at h
      · next hblank =>
          rw [if_neg (by rw [hblank]; decide)]
          exact ih h
      · next hrow =>
          rw [if_pos (by rw [Bool.not_eq_true] at hrow; rw [hrow]; rfl), List.length_cons]
          split at h
          · cases hrest : entriesOf rows with
            | ok others =>
                rw [hrest] at h
                cases h
                exact Nat.succ_le_succ (ih hrest)
            | error f =>
                rw [hrest] at h
                cases h
          · exact Nat.le_succ_of_le (ih h)
          · cases h

/-- At most as many entries wait as there are lines. -/
theorem length_pending {waiting : List Json} (h : pending disk = .ok waiting) :
    waiting.length ≤ (queued disk).length := by
  unfold pending at h
  unfold queued
  cases hget : disk.get? path with
  | none =>
      rw [hget] at h
      cases h
      exact Nat.zero_le _
  | some content =>
      rw [hget] at h
      cases content with
      | text text => exact length_entriesOf h
      | raw bytes => cases h

/-- The lines of the entries that are kept, one for each. -/
theorem queued_keep (disk : Disk) (entries : List Json) :
    queued (keep disk entries) = entries.map Json.write := by
  unfold queued keep
  cases entries with
  | nil =>
      rw [List.isEmpty_nil, if_pos rfl, Disk.get?_remove_self]
      rfl
  | cons e entries =>
      rw [List.isEmpty_cons, if_neg Bool.false_ne_true, Disk.get?_put_self]
      dsimp only
      rw [lines_join, List.map_append, List.filter_append, List.map_map]
      have htrim : (e :: entries).map (trim ∘ Json.write) = (e :: entries).map Json.write :=
        List.map_congr_left fun e _ => e.trim_write
      rw [htrim, List.filter_eq_self.mpr]
      · exact List.append_nil _
      · intro row hrow
        obtain ⟨e, -, rfl⟩ := List.mem_map.mp hrow
        rw [List.isEmpty_eq_false_iff.mpr e.write_ne_nil]
        rfl

/-- Each entry that a flush delivers has one request that creates it as a
memory and is answered with a success, and no other request has. -/
theorem flush_created (site : Site) (images : Bool) (disk : Disk) (wire : Wire) :
    ∃ requests, (flush site images disk wire).2.2 = wire.sendAll requests
      ∧ (created site requests wire).length
        = ((Course.mk disk wire []).flushed site images).length := by
  unfold flush Course.flushed
  dsimp only
  cases pending disk with
  | error f => exact ⟨[], rfl, rfl⟩
  | ok waiting =>
      obtain ⟨requests, hwire, hcount, -⟩ := replayAll_created site images disk waiting wire
      refine ⟨requests, ?_, hcount⟩
      rw [← hwire]
      dsimp only
      split <;> next hrun => rw [hrun]

/-- A flush that returns keeps the lines of the entries behind the delivered
ones. -/
theorem flush_returned {count : Flushed} {wire : Wire}
    (h : (flush site images disk wire).1 = .ok count) :
    ∃ left, pending disk = .ok ((Course.mk disk wire []).flushed site images ++ left)
      ∧ count = ⟨((Course.mk disk wire []).flushed site images).length, left.length⟩
      ∧ queued (flush site images disk wire).2.1 = left.map Json.write := by
  unfold flush Course.flushed at *
  dsimp only at *
  cases hpending : pending disk with
  | error f =>
      rw [hpending] at h
      cases h
  | ok waiting =>
      rw [hpending] at h
      dsimp only at h ⊢
      obtain ⟨-, -, -, hok⟩ := replayAll_created site images disk waiting wire
      split at h
      · cases h
      · next sent left wire' hrun =>
          cases h
          obtain ⟨hsent, hsplit⟩ := hok sent left (congrArg Prod.fst hrun)
          refine ⟨left, congrArg Except.ok hsplit, ?_, ?_⟩
          · rw [hsent]
          · exact queued_keep disk left

/-- A fault leaves the file as it was. -/
theorem disk_of_fault {f : Fault} {wire : Wire} (h : (flush site images disk wire).1 = .error f) :
    (flush site images disk wire).2.1 = disk := by
  unfold flush at h ⊢
  cases hpending : pending disk with
  | error f => rfl
  | ok waiting =>
      rw [hpending] at h
      dsimp only at h ⊢
      split at h
      · rfl
      · cases h

/-- What was delivered leaves the outbox exactly if the flush returns.  Each
entry that is delivered has one request that creates it as a memory and is
answered with a success.  If the flush returns, the lines in the file are those
of the entries behind the delivered ones.  A fault leaves the file as it was,
and with it a line for each memory that was created. -/
theorem delivered_leave_iff (site : Site) (images : Bool) (disk : Disk) (wire : Wire) :
    let flushed := flush site images disk wire
    let delivered := (Course.mk disk wire []).flushed site images
    ∃ requests, flushed.2.2 = wire.sendAll requests
      ∧ (created site requests wire).length = delivered.length
      ∧ (∀ count, flushed.1 = .ok count → ∃ left, pending disk = .ok (delivered ++ left)
        ∧ count = ⟨delivered.length, left.length⟩ ∧ queued flushed.2.1 = left.map Json.write)
      ∧ (∀ f, flushed.1 = .error f → flushed.2.1 = disk)
      ∧ ((queued flushed.2.1).length + (created site requests wire).length ≤ (queued disk).length
        ↔ (∃ count, flushed.1 = .ok count) ∨ created site requests wire = []) := by
  intro flushed delivered
  obtain ⟨requests, hwire, hcount⟩ := flush_created site images disk wire
  refine ⟨requests, hwire, hcount, fun _ => flush_returned, fun _ => disk_of_fault, ?_⟩
  rw [hcount, ← List.length_eq_zero_iff (l := created site requests wire), hcount]
  cases hresult : flushed.1 with
  | ok count =>
      obtain ⟨left, hpending, -, hqueued⟩ := flush_returned hresult
      have hlines := length_pending hpending
      rw [List.length_append] at hlines
      have hleft : (queued flushed.2.1).length = left.length := by
        rw [hqueued, List.length_map]
      refine ⟨fun _ => .inl ⟨count, rfl⟩, fun _ => ?_⟩
      rw [hleft, Nat.add_comm]
      exact hlines
  | error f =>
      -- every line is where it was
      have hdisk : flushed.2.1 = disk := disk_of_fault hresult
      rw [hdisk]
      refine ⟨fun h => .inr (by omega), ?_⟩
      rintro (⟨count, hreturned⟩ | hnone)
      · cases hreturned
      · omega

/-- A text waits, and behind it a line that is a number.  The text is
delivered, the number stops the flush, and both lines are there again. -/
theorem delivered_line_stays :
    let site : Site := ⟨"http://api.test/api", none⟩
    let disk := keep ⟨"/home", [], []⟩ [entry (.str "text") (.obj textNote), .int 5]
    let wire : Wire := ⟨[.reply 200 ""], .lost, []⟩
    let flushed := flush site false disk wire
    (∀ row ∈ queued disk, ∃ value, Json.readText row = .ok value)
      ∧ ∃ requests, flushed.2.2 = wire.sendAll requests
        ∧ (created site requests wire).length = 1
        ∧ (queued disk).length = 2 ∧ queued flushed.2.1 = queued disk := by
  intro site disk wire flushed
  let text := entry (.str "text") (.obj textNote)
  have hread : ∀ e ∈ [text, .int 5], Json.readText e.write = .ok e := by
    intro e hmem
    simp only [List.mem_cons, List.not_mem_nil, or_false] at hmem
    rcases hmem with rfl | rfl
    · exact Json.readText_write recorded_textNote.plain recorded_textNote.writable
    · exact Json.readText_write rfl (by decide)
  have hqueued : queued disk = [text, .int 5].map Json.write := queued_keep _ _
  have hpending : pending disk = .ok [text, .int 5] := pending_keep_of_read hread _
  clear_value disk
  have hdelivered : (deliver site false disk [text, .int 5] wire).1 = [text] := rfl
  have hfault : flushed = (.error .notAnObject, disk, _) :=
    flush_at_fault hpending (by rw [hdelivered]; rfl) rfl
  have hcreated : (Course.mk disk wire []).flushed site false = [text] := by
    unfold Course.flushed
    dsimp only
    rw [hpending]
    exact hdelivered
  obtain ⟨requests, hwire, hcount⟩ := flush_created site false disk wire
  refine ⟨?_, requests, hwire, ?_, ?_, ?_⟩
  · intro row hrow
    rw [hqueued] at hrow
    obtain ⟨e, hmem, rfl⟩ := List.mem_map.mp hrow
    exact ⟨e, hread e hmem⟩
  · rw [hcount, hcreated]
    rfl
  · rw [hqueued]
    rfl
  · rw [hfault]
end Daybook.Outbox
