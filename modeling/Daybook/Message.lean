/-
Messages of the diary, and what one line of input comes to.

Two voices speak: Mother answers, MiD guides, prompts and reports errors.
A line typed by the user is shown under the user's own name.
-/
import Daybook.Fault

namespace Daybook

/-- How a message is shown: as a line of text, or by clearing the
screen. -/
inductive MessageKind where
  | text
  | clear
deriving DecidableEq

/-- A message with its speaker. -/
structure Message where
  speaker : String
  text : String
  kind : MessageKind
deriving DecidableEq

namespace Message

/-- The voice that answers. -/
def mother : String := "Mother"

/-- The voice that guides. -/
def guide : String := "MiD"

/-- An answer. -/
def reply (text : String) : Message := ⟨mother, text, .text⟩

/-- Guidance, a prompt or an error. -/
def note (text : String) : Message := ⟨guide, text, .text⟩

/-- Clears the screen. -/
def wipe : Message := ⟨guide, "", .clear⟩

end Message

/-- What one line of input comes to in a dialogue with state `σ`: the
state that it leaves, the messages or the fault, whether the dialogue is
over and whether it reached its goal, and the failure of a save. -/
structure Turn (σ : Type) where
  state : σ
  reply : Except Fault (List Message)
  ended : Bool
  completed : Bool
  failure : Option String

namespace Turn

variable {σ : Type}

/-- The dialogue goes on. -/
def go (state : σ) (reply : Except Fault (List Message)) : Turn σ :=
  ⟨state, reply, false, false, none⟩

/-- The dialogue is over without reaching its goal. -/
def stop (state : σ) (messages : List Message) : Turn σ :=
  ⟨state, .ok messages, true, false, none⟩

/-- The dialogue goes on although a save failed. -/
def held (state : σ) (reply : Except Fault (List Message)) (failure : String) : Turn σ :=
  ⟨state, reply, false, false, some failure⟩

/-- The dialogue is over and reached its goal. -/
def done (state : σ) (reply : Except Fault (List Message)) : Turn σ :=
  ⟨state, reply, reply.isOk, reply.isOk, none⟩

end Turn

-- ===================================================== control words

/-- The words that leave a dialogue. -/
def cancelWords : List String := ["cancel", "exit"]

end Daybook
