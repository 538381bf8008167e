/-
Requests, answers and the wire between the diary and its backend.

The wire holds the answers still to come and the requests made so far, in
order.  Sending a request takes the next answer; when none is left, every
further request gets the same closing answer.
-/
import Daybook.Disk.Basic
import Daybook.Json.Basic

namespace Daybook.Http

/-- The methods that the backend knows. -/
inductive Method where
  | get
  | post
  | put
  | delete
deriving DecidableEq

/-- The name of a method. -/
def Method.name : Method → String
  | .get => "GET"
  | .post => "POST"
  | .put => "PUT"
  | .delete => "DELETE"

/-- What a request carries: nothing, a JSON value, or a form with an
image and further fields. -/
inductive Body where
  | none
  | json (value : Json)
  | form (filename : String) (image : Content) (fields : Record)

/-- A request to the backend. -/
structure Request where
  method : Method
  url : String
  token : Option String
  query : Option Record
  body : Body

/-- The headers of a request: the token, if there is one. -/
def Request.headers (request : Request) : List (String × String) :=
  match request.token with
  | some token => [("Authorization", "Bearer " ++ token)]
  | none => []

/-- How long to wait for a connection and for an answer, in seconds. -/
def Request.timeouts : Nat × Nat := (5, 30)

/-- What comes of a request: an answer with a status and a body, or
nothing. -/
inductive Answer where
  | lost
  | reply (status : Int) (body : String)

/-- The answers to come, the answer when they are used up, and the
requests made. -/
structure Wire where
  answers : List Answer
  closing : Answer
  sent : List Request

namespace Wire

/-- Sends a request and takes its answer. -/
def send (wire : Wire) (request : Request) : Answer × Wire :=
  match wire.answers with
  | [] => (wire.closing, { wire with sent := wire.sent ++ [request] })
  | answer :: answers =>
    (answer, { wire with answers := answers, sent := wire.sent ++ [request] })

@[simp] theorem sent_send (wire : Wire) (request : Request) :
    (wire.send request).2.sent = wire.sent ++ [request] := by
  unfold send
  split <;> rfl

end Wire
end Daybook.Http
