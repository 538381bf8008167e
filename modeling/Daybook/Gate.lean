/-
The confirmation gate: a yes or no before something is done.

While an action waits, only `yes`, `y`, `no` and `n` settle it; any other
line leaves it waiting.  The gate hands a settled action back and never
carries it out.
-/
import Daybook.Fault
import Daybook.Text.Blank
import Daybook.Text.Letter

namespace Daybook

/-- An action that waits for a confirmation. -/
structure Pending (α : Type) where
  kind : String
  data : α
  prompt : String

/-- The gate, with the action that waits. -/
structure Gate (α : Type) where
  pending : Option (Pending α)

/-- How a line settles what waits. -/
inductive Decision where
  | yes
  | no
  | none
deriving DecidableEq

/-- The name of a decision. -/
def Decision.name : Decision → String
  | .yes => "yes"
  | .no => "no"
  | .none => "none"

namespace Gate

variable {α : Type}

/-- The gate with nothing waiting. -/
def empty : Gate α := ⟨none⟩

/-- Whether an action waits. -/
def armed (gate : Gate α) : Bool := gate.pending.isSome

/-- Lets an action wait; only one can. -/
def request (gate : Gate α) (action : Pending α) : Except Fault (Gate α) :=
  match gate.pending with
  | some waiting => .error (.alreadyWaiting waiting.kind)
  | none => .ok ⟨some action⟩

/-- The decision that a line states. -/
def decisionOf (line : String) : Decision :=
  let word := Text.lowercase (Text.trimmed line)
  if word ∈ ["yes", "y"] then .yes
  else if word ∈ ["no", "n"] then .no
  else .none

/-- Interprets a line: the decision, the action that it concerns, and the
gate afterwards. -/
def resolve (gate : Gate α) (line : String) : Decision × Option (Pending α) × Gate α :=
  match gate.pending with
  | none => (.none, none, gate)
  | some action =>
    match decisionOf line with
    | .none => (.none, some action, gate)
    | decision => (decision, some action, empty)

end Gate
end Daybook
