/-
What the words at the head of a line make of it.

The command is found in the trimmed line in small letters.  A line that is
written with the words of a command at its head is read as that command,
whatever follows them: trimming reaches only what follows, and the words of
one command open no other.
-/
import Daybook.Instruction.Read
import Daybook.Proofs.Text.Pieces

namespace Daybook.Instruction

open Text

variable {opening rest : List Char} {instruction : Instruction}

/-- Trimmed words at the head of a line stay there when the line is trimmed
and lowered. -/
theorem exists_lowered_trim (hne : opening ≠ []) (htrim : trim opening = opening)
    (rest : List Char) : ∃ tail, lowered (trim (opening ++ rest)) = lowered opening ++ tail := by
  obtain ⟨hfirst, hlast⟩ := (trim_eq_self_iff opening).mp htrim
  obtain ⟨tail, htail⟩ := exists_trim_append hfirst hlast hne rest
  exact ⟨lowered tail, by rw [htail, lowered_append]⟩

/-- A text is read by the words that open it, if they are trimmed and in
small letters and decide the instruction whatever stands behind them. -/
theorem readChars_opening (hne : opening ≠ []) (htrim : trim opening = opening)
    (hlower : lowered opening = opening)
    (hread : ∀ tail, readHeaded (opening ++ tail) (opening ++ rest) = instruction) :
    readChars (opening ++ rest) = instruction := by
  obtain ⟨tail, htail⟩ := exists_lowered_trim hne htrim rest
  unfold readChars
  rw [htail, hlower, hread]

/-- A text that opens with these words asks for a memory to be
created. -/
theorem readChars_createMemory (rest : List Char) :
    readChars ("create memory".toList ++ rest) = readCreateMemory ("create memory".toList ++ rest) :=
  readChars_opening (by decide) (by decide) (by decide) fun _ => rfl

/-- A text that opens with these words asks for a picture to be saved. -/
theorem readChars_savePicture (rest : List Char) :
    readChars ("save picture".toList ++ rest) = readSavePicture ("save picture".toList ++ rest) :=
  readChars_opening (by decide) (by decide) (by decide) fun _ => rfl

/-- A text that opens with these words asks for a memory to be edited. -/
theorem readChars_editMemory {opening : String} (h : opening ∈ ["edit memory", "update memory"])
    (rest : List Char) :
    readChars (opening.toList ++ rest) = readEditMemory (opening.toList ++ rest) := by
  rcases List.mem_pair.mp h with rfl | rfl
  · exact readChars_opening (by decide) (by decide) (by decide) fun _ => rfl
  · exact readChars_opening (by decide) (by decide) (by decide) fun _ => rfl

/-- A text that opens with these words asks for a deletion. -/
theorem readChars_deleteMemories (rest : List Char) :
    readChars ("delete memories".toList ++ rest)
      = .delete (readDeletion ("delete memories".toList ++ rest)) :=
  readChars_opening (by decide) (by decide) (by decide) fun _ => rfl

/-- A text that opens with this word asks for a query. -/
theorem readChars_show (rest : List Char) :
    readChars ("show".toList ++ rest) = .retrieve (readQuery ("show".toList ++ rest)) :=
  readChars_opening (by decide) (by decide) (by decide) fun _ => rfl

end Daybook.Instruction
