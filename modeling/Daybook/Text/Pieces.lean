/-
Texts in pieces: cutting at a separator.

Cutting keeps empty pieces, so there is always a piece.
-/
import Daybook.Text.Blank

namespace Daybook.Text

/-- The pieces between the separators, empty ones included; never none. -/
def cut (separator : Char) : List Char → List (List Char)
  | [] => [[]]
  | c :: cs =>
    if c = separator then [] :: cut separator cs
    else
      match cut separator cs with
      | [] => [[c]]
      | piece :: pieces => (c :: piece) :: pieces

/-- The lines of a text. -/
def lines (cs : List Char) : List (List Char) := cut '\n' cs

/-- The comma-separated pieces of a text, each trimmed, empty ones kept. -/
def cells (cs : List Char) : List (List Char) := (cut ',' cs).map trim

/-- The comma-separated pieces of a text, each trimmed, empty ones
dropped. -/
def names (cs : List Char) : List (List Char) := (cells cs).filter (· ≠ [])

/-- The comma-separated values in a line, empty ones kept. -/
def cellsIn (line : String) : List String := (cells line.toList).map String.ofList

/-- The comma-separated names in a line, empty ones dropped. -/
def namesIn (line : String) : List String := (names line.toList).map String.ofList

-- ============================================================== laws

/-- There is always a piece. -/
theorem cut_ne_nil (separator : Char) (cs : List Char) : cut separator cs ≠ [] := by
  cases cs with
  | nil => simp [cut]
  | cons c cs =>
    unfold cut
    split
    · simp
    · split <;> simp

/-- A separator at the head is cut off behind an empty piece. -/
theorem cut_separator (separator : Char) (cs : List Char) :
    cut separator (separator :: cs) = [] :: cut separator cs := by
  simp [cut]

/-- Any other character joins the first piece behind it. -/
theorem cut_of_ne {separator c : Char} (h : c ≠ separator) {cs piece : List Char}
    {pieces : List (List Char)} (hcut : cut separator cs = piece :: pieces) :
    cut separator (c :: cs) = (c :: piece) :: pieces := by
  rw [cut, if_neg h, hcut]

/-- No piece holds the separator. -/
theorem not_mem_of_mem_cut {separator : Char} {cs piece : List Char}
    (h : piece ∈ cut separator cs) : separator ∉ piece := by
  induction cs generalizing piece with
  | nil =>
    rw [cut, List.mem_singleton] at h
    rw [h]
    exact List.not_mem_nil
  | cons c cs ih =>
    by_cases hc : c = separator
    · subst hc
      rw [cut_separator, List.mem_cons] at h
      rcases h with rfl | h
      · exact List.not_mem_nil
      · exact ih h
    · cases hcut : cut separator cs with
      | nil => exact absurd hcut (cut_ne_nil separator cs)
      | cons first pieces =>
        rw [cut_of_ne hc hcut, List.mem_cons] at h
        rcases h with rfl | h
        · rw [List.mem_cons, not_or]
          exact ⟨Ne.symm hc, ih (by rw [hcut]; exact List.mem_cons_self)⟩
        · exact ih (by rw [hcut]; exact List.mem_cons_of_mem first h)

end Daybook.Text
