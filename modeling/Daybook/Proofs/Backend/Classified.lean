/-
How a call ends, told by its answer.

Two things are looked at, one inside the other: whether the body can be
read, and whether the status is an error.  `decode_read` is what a body that
can be read comes to, and `decode_unread` what any other one comes to; the
status decides in the first case only what is reported, and in the second
only how it is worded.  The main statement puts both together: a call
succeeds exactly on a success, and every error tells the status it was met
with, or that there was none.

What a status means is lost in one place.  Something that is not there is
told apart only behind a body that can be read.
-/
import Daybook.Proofs.Exchange

namespace Daybook

open Http

namespace Http.Answer

/-- The status of an answer; none if no answer came. -/
def status? : Answer → Option Int
  | .lost => none
  | .reply status _ => some status

/-- Whether an answer came with a body that can be read: one that is empty,
or JSON. -/
inductive Readable : Answer → Prop
  | empty (status : Int) : Readable (.reply status "")
  | json {text : String} {value : Json} (status : Int) (h : Json.parse text = .ok value) :
    Readable (.reply status text)

/-- Whether an answer is a success: it can be read, and its status is no
error. -/
def IsSuccess (answer : Answer) : Prop :=
  answer.Readable ∧ ∃ status, answer.status? = some status ∧ ¬(400 ≤ status ∧ status < 600)

end Http.Answer

namespace Backend

variable {site : Site} {status : Int} {text : String}

-- ============================================================= the errors

/-- Whether an error tells what became of a request: its status is that of
the answer, it is that of something missing just for a status 404 behind
which there is a body that can be read, and the backend counts as out of
reach if no answer came or the status says that the backend failed. -/
structure CallError.Tells (e : CallError) (answer : Answer) : Prop where
  status : e.status = answer.status?
  notFound : e.notFound = true ↔ answer.status? = some 404 ∧ answer.Readable
  unreachable : e.unreachable = true
    ↔ answer = .lost ∨ ∃ status, answer.status? = some status ∧ 500 ≤ status

theorem isSuccess_iff (status : Int) :
    isSuccess status = true ↔ ¬(400 ≤ status ∧ status < 600) := by
  unfold isSuccess
  rw [Bool.not_eq_true', ← Bool.not_eq_true, Bool.and_eq_true, decide_eq_true_iff,
    decide_eq_true_iff]

/-- Behind any answer that came, its status decides who is to blame. -/
theorem unreachable_reply {e : CallError} (h : e.status = some status) :
    e.unreachable = true ↔ Answer.reply status text = .lost
      ∨ ∃ other, (Answer.reply status text).status? = some other ∧ 500 ≤ other := by
  unfold CallError.unreachable
  rw [h]
  refine ⟨fun hfailed => .inr ⟨status, rfl, of_decide_eq_true hfailed⟩, ?_⟩
  rintro (hlost | ⟨other, hother, hfailed⟩)
  · cases hlost
  · cases hother
    exact decide_eq_true hfailed

theorem tells_lost (site : Site) :
    CallError.Tells ⟨"Cannot connect to server at " ++ site.base, none, false⟩ .lost where
  status := rfl
  notFound := ⟨Bool.noConfusion, fun hmissing => nomatch hmissing.1⟩
  unreachable := ⟨fun _ => .inl rfl, fun _ => rfl⟩

/-- Of an answer that can be read, the error is told by the status alone. -/
theorem tells_reported (h : (Answer.reply status text).Readable) (body : Json) :
    (reported status body).Tells (.reply status text) where
  status := rfl
  notFound := by
    show (status == 404) = true ↔ some status = some 404 ∧ _
    rw [beq_iff_eq, Option.some.injEq, and_iff_left h]
  unreachable := unreachable_reply rfl

theorem tells_unread (h : ¬(Answer.reply status text).Readable) (message : String) :
    CallError.Tells ⟨message, some status, false⟩ (.reply status text) where
  status := rfl
  notFound := ⟨Bool.noConfusion, fun hmissing => absurd hmissing.2 h⟩
  unreachable := unreachable_reply rfl

-- =========================================================== the decoding

/-- A body that can be read is taken as content or as a report. -/
theorem decode_read (site : Site) (h : (Answer.reply status text).Readable) :
    ∃ body, decode site (.reply status text)
      = if isSuccess status then .ok (unwrapped body) else .error (reported status body) := by
  unfold decode
  dsimp only
  cases h with
  | empty => exact ⟨.obj [], rfl⟩
  | @json _ value _ hvalue =>
      by_cases hempty : text = ""
      · exact ⟨.obj [], by rw [if_pos hempty]⟩
      · exact ⟨value, by rw [if_neg hempty, hvalue]⟩

/-- Any other body is only quoted, if at all. -/
theorem decode_unread (site : Site) (h : ¬(Answer.reply status text).Readable) :
    ∃ message, decode site (.reply status text) = .error ⟨message, some status, false⟩ := by
  have hempty : text ≠ "" := by
    rintro rfl
    exact h (.empty status)
  unfold decode
  dsimp only
  rw [if_neg hempty]
  cases hparse : Json.parse text with
  | ok value => exact absurd (.json status hparse) h
  | error reason => exact ⟨_, rfl⟩

theorem isSuccess_reply (h : (Answer.reply status text).Readable) :
    (Answer.reply status text).IsSuccess ↔ isSuccess status = true := by
  rw [isSuccess_iff]
  refine ⟨?_, fun hstatus => ⟨h, status, rfl, hstatus⟩⟩
  rintro ⟨-, other, hother, hstatus⟩
  cases hother
  exact hstatus

/-- What an answer is decoded to: content if it is a success, and else an
error that tells of it. -/
theorem decode_classified (site : Site) (answer : Answer) :
    (∃ content, decode site answer = .ok content ∧ answer.IsSuccess)
      ∨ ∃ e, decode site answer = .error e ∧ ¬answer.IsSuccess ∧ e.Tells answer := by
  cases answer with
  | lost => exact .inr ⟨_, rfl, fun hsuccess => (nomatch hsuccess.1), tells_lost site⟩
  | reply status text =>
      by_cases hread : (Answer.reply status text).Readable
      · obtain ⟨body, hbody⟩ := decode_read site hread
        rw [hbody, isSuccess_reply hread]
        cases isSuccess status with
        | true => exact .inl ⟨_, rfl, rfl⟩
        | false => exact .inr ⟨_, rfl, Bool.noConfusion, tells_reported hread body⟩
      · obtain ⟨message, herror⟩ := decode_unread site hread
        exact .inr ⟨_, herror, fun hsuccess => hread hsuccess.1, tells_unread hread message⟩

-- =============================================================== the calls

/-- Whatever is asked of the backend, a call returns content exactly if the
answer to it is a success: it came with a status outside 400 to 599 and a
body that is empty or JSON.  Otherwise the call fails, and never in any other
way than with an error that tells of the answer. -/
theorem call_classified (site : Site) (method : Method) (path : String) (query : Option Record)
    (body : Body) (wire : Wire) :
    let answer := wire.answer 0
    let result := ((site.call method path query body).on wire).1
    ((∃ content, result = .ok content) ↔ answer.IsSuccess)
      ∧ (answer.IsSuccess ∨ ∃ e, result = .error (.call e) ∧ e.Tells answer) := by
  intro answer result
  have hresult : result = (decode site answer).mapError .call :=
    congrArg Prod.fst (on_call method path query body wire)
  rw [hresult]
  obtain ⟨content, hdecode, hsuccess⟩ | ⟨e, hdecode, hfailure, htells⟩ := decode_classified site answer
  · rw [hdecode]
    exact ⟨⟨fun _ => hsuccess, fun _ => ⟨content, rfl⟩⟩, .inl hsuccess⟩
  · rw [hdecode]
    refine ⟨⟨fun hcontent => ?_, fun hsuccess => absurd hsuccess hfailure⟩, .inr ⟨e, rfl, htells⟩⟩
    obtain ⟨content, hcontent⟩ := hcontent
    cases hcontent

/-- A status 404 with a page of text in its body is not met as one of
something missing. -/
theorem page_hides_missing :
    let wire : Wire := ⟨[.reply 404 "Not Found"], .lost, []⟩
    let site : Site := ⟨"http://api.test/api", none⟩
    ∃ e, ((site.call .delete "/memories/7" none .none).on wire).1 = .error (.call e)
      ∧ (wire.answer 0).status? = some 404 ∧ e.status = some 404 ∧ e.notFound = false :=
  ⟨_, rfl, rfl, rfl, rfl⟩

end Backend
end Daybook
