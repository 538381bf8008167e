/-
Calls of the backend and how they fail.

A call sends one request and decodes its answer.  It fails with a
`CallError` when no answer comes, when the answer's status is an error, or
when its body is not JSON.  Whether the backend was out of reach decides
whether an entry may be queued instead.
-/
import Daybook.Http.Basic
import Daybook.Json.Read
import Daybook.Json.Show

namespace Daybook.Backend

open Http

/-- Why a call failed; without a status no answer came. -/
structure CallError where
  message : String
  status : Option Int
  notFound : Bool

/-- Whether the backend was out of reach: no answer came, or it failed on
its side. -/
def CallError.unreachable (e : CallError) : Bool :=
  match e.status with
  | none => true
  | some status => 500 ≤ status

/-- Why an action on the backend stopped: a failed call, a file that
cannot be read, or a value without the needed shape. -/
inductive Trouble where
  | call (e : CallError)
  | file (e : FileError)
  | fault (f : Fault)

/-- An action on the backend. -/
abbrev Call (α : Type) := ExceptT Trouble (StateM Wire) α

/-- A value with the needed shape, or else the fault. -/
def Call.ofExcept {α : Type} (value : Except Fault α) : Call α :=
  match value with
  | .ok a => pure a
  | .error f => throw (.fault f)

/-- Where the backend is, and the token that it asks for. -/
structure Site where
  base : String
  token : Option String

/-- A site at a base address, slashes at its end and an empty token being
left out. -/
def Site.of (base : String) (token : Option String) : Site :=
  { base := String.ofList (base.toList.reverse.dropWhile (· == '/')).reverse
    token := token.filter (· ≠ "") }

-- ============================================================ answers

/-- Whether a status is no error. -/
def isSuccess (status : Int) : Bool := !(400 ≤ status && status < 600)

/-- The first of two values that says something, as text. -/
def firstText? (first second : Json) : Option String :=
  if !first.isVacant then some first.text
  else if !second.isVacant then some second.text
  else none

/-- The error that an answer with an error status reports: the message in
its body, or else its status. -/
def reported (status : Int) (body : Json) : CallError :=
  let given := match body with
    | .obj fields => firstText? (Record.get fields "error") (Record.get fields "message")
    | _ => none
  { message := given.getD ("Request failed: " ++ toString status)
    status := some status
    notFound := status == 404 }

/-- The content of a successful answer: its `data` if that is an object,
else its body, under `result` if that is no object. -/
def unwrapped (body : Json) : Record :=
  match body with
  | .obj fields =>
    match Record.get fields "data" with
    | .obj data => data
    | _ => fields
  | value => [("result", value)]

/-- Decodes an answer.  An empty body stands for an empty object. -/
def decode (site : Site) (answer : Answer) : Except CallError Record :=
  match answer with
  | .lost => .error ⟨"Cannot connect to server at " ++ site.base, none, false⟩
  | .reply status text =>
    match if text = "" then .ok (.obj []) else Json.parse text with
    | .error _ =>
      let message := if isSuccess status then "Invalid JSON response from server" else text
      .error ⟨message, some status, false⟩
    | .ok body => if isSuccess status then .ok (unwrapped body) else .error (reported status body)

/-- Sends a request to a path of the site and decodes the answer. -/
def Site.call (site : Site) (method : Method) (path : String) (query : Option Record)
    (body : Body) : Call Record := fun wire =>
  let (answer, wire) := wire.send ⟨method, site.base ++ path, site.token, query, body⟩
  ((decode site answer).mapError .call, wire)

end Daybook.Backend
