/-
Scanning a text for the first place where something can be read.

Every clause reader in the library is a function of the text from some
position on.  `seek` tries it at each position in turn, the end included,
and takes the first success: what stands further left wins.
-/
import Daybook.Text.Blank
import Daybook.Text.Letter

namespace Daybook.Text

/-- The first reading that succeeds, from left to right. -/
def seek {α : Type} (read : List Char → Option α) : List Char → Option α
  | [] => read []
  | c :: cs =>
    match read (c :: cs) with
    | some a => some a
    | none => seek read cs

/-- All characters before the first place where `stop` holds; the whole
text if there is none. -/
def takeUntil (stop : List Char → Bool) : List Char → List Char
  | [] => []
  | c :: cs => if stop (c :: cs) then [] else c :: takeUntil stop cs

/-- The longest run of accepted characters at the head of a text, if it is
not empty. -/
def run? (accept : Char → Bool) (cs : List Char) : Option (List Char) :=
  match cs.takeWhile accept with
  | [] => none
  | value => some value

/-- Whether the words of `part` occur in a text. -/
def contains (part : String) (cs : List Char) : Bool :=
  (seek (fun rest => if startsWith part rest then some () else none) cs).isSome

-- ============================================================= laws

/-- A reading found by `seek` was made at some position of the text. -/
theorem exists_suffix_of_seek {α : Type} {read : List Char → Option α} {a : α} :
    ∀ {cs : List Char}, seek read cs = some a → ∃ rest, rest <:+ cs ∧ read rest = some a
  | [], h => ⟨[], List.suffix_refl _, h⟩
  | c :: cs, h => by
    simp only [seek] at h
    split at h
    next b hb => exact ⟨c :: cs, List.suffix_refl _, by rw [hb, h]⟩
    next =>
      obtain ⟨rest, hrest, hread⟩ := exists_suffix_of_seek h
      exact ⟨rest, hrest.trans (List.suffix_cons c cs), hread⟩

/-- A run holds accepted characters only. -/
theorem all_of_run? {accept : Char → Bool} {cs value : List Char}
    (h : run? accept cs = some value) : value ≠ [] ∧ ∀ c ∈ value, accept c = true := by
  unfold run? at h
  split at h
  · cases h
  · next hne =>
    cases h
    refine ⟨fun hnil => hne hnil, fun c hc => ?_⟩
    exact List.all_eq_true.mp List.all_takeWhile c hc

end Daybook.Text
