/-
Lines that a dialogue takes while nothing else happens.

A form and a revision are answered line by line, and most lines only move
the dialogue on: there are messages, the dialogue is not over, and the
surroundings stay as they are, whatever they are.  `Follows` says that of
a whole sequence of lines.
-/
import Daybook.Message
import Daybook.Text.Letter
import Daybook.World

namespace Daybook

open Text (trimmed lowercase)

/-- The word that a line may be for a dialogue. -/
def wordOf (line : String) : String := lowercase (trimmed line)

/-- Whether a line says something, and does not leave the dialogue. -/
def IsAnswer (line : String) : Prop := trimmed line ≠ "" ∧ wordOf line ∉ cancelWords

instance (line : String) : Decidable (IsAnswer line) :=
  inferInstanceAs (Decidable (trimmed line ≠ "" ∧ wordOf line ∉ cancelWords))

variable {σ : Type} {answer : σ → String → World → Turn σ × World}

/-- Whether a dialogue goes from one state to another by some lines, and
leaves all surroundings alone on the way. -/
inductive Follows (answer : σ → String → World → Turn σ × World) : σ → List String → σ → Prop
  | nil (state : σ) : Follows answer state [] state
  | step {state next last : σ} {line : String} {lines : List String} {messages : List Message}
    (h : ∀ world, answer state line world = (.go next (.ok messages), world))
    (rest : Follows answer next lines last) : Follows answer state (line :: lines) last

namespace Follows

theorem one {state next : σ} {line : String} {messages : List Message}
    (h : ∀ world, answer state line world = (.go next (.ok messages), world)) :
    Follows answer state [line] next := .step h (.nil next)

theorem append {first second third : σ} {lines more : List String}
    (h : Follows answer first lines second) (hmore : Follows answer second more third) :
    Follows answer first (lines ++ more) third := by
  induction h with
  | nil state => exact hmore
  | step h rest ih => exact .step h (ih hmore)

end Follows
end Daybook
