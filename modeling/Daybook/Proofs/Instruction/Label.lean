/-
Where the clauses of a line are found.

A clause begins with its label, a word and a colon.  The colon carries the
proofs about it: a label that is read before the first colon of a text is
all of that text (`spells_of_afterLabel`).  So a scan for a clause goes
through a line from colon to colon.  At each colon either the label stands
before it (`clause?_here`), or no text that ends there spells its word and
the scan goes on behind the colon (`clause?_past`).
-/
import Daybook.Instruction.Clause
import Daybook.Proofs.Text.Pieces
import Daybook.Proofs.Text.Scan

namespace Daybook.Clause

open Text

variable {α : Type} {word front text rest : List Char} {spaced : Bool}

-- =============================================================== labels

/-- What follows a word and a colon at the head of a text, blanks before the
colon being allowed if `spaced`. -/
def afterLabel (word : List Char) (spaced : Bool) (cs : List Char) : Option (List Char) :=
  (afterWord word cs).bind (afterColon spaced)

/-- Whether a word can be that of a label: it holds neither a colon nor a
blank. -/
def IsLabel (word : List Char) : Prop := word ≠ [] ∧ ∀ c ∈ word, c ≠ ':' ∧ isBlank c = false

theorem IsLabel.not_colon (hword : IsLabel word) (h : Spells text word) : ':' ∉ text :=
  h.not_mem (by decide) fun hmem => (hword.2 ':' hmem).1 rfl

theorem IsLabel.not_blank (hword : IsLabel word) (h : Spells text word) :
    ∀ c ∈ text, isBlank c = false := h.not_blank fun c hc => (hword.2 c hc).2

/-- A label written with its colon. -/
theorem afterWord_concat_colon (word cs : List Char) :
    afterWord (word ++ [':']) cs = afterLabel word false cs := by
  unfold afterLabel
  induction word generalizing cs with
  | nil =>
      cases cs with
      | nil => rfl
      | cons c cs =>
          have hcolon : fold c = ':' ↔ c = ':' :=
            ⟨fun h => eq_of_fold_eq h (by decide), fun h => by rw [h]; rfl⟩
          simp only [List.nil_append, afterWord, Option.bind_some, afterColon, hcolon]
          by_cases hc : c = ':'
          · subst hc
            rfl
          · rw [if_neg hc]
            split
            · next heq => exact absurd (List.cons.inj heq).1 hc
            · rfl
  | cons w word ih =>
      cases cs with
      | nil => rfl
      | cons c cs =>
          rw [List.cons_append, afterWord, afterWord]
          split
          · exact ih cs
          · rfl

theorem afterLabel_of_spells (h : Spells text word) :
    afterLabel word spaced (text ++ ':' :: rest) = some rest := by
  have hread : afterWord word (text ++ ':' :: rest) = some (':' :: rest) :=
    afterWord_eq_some_iff.mpr ⟨text, rfl, h⟩
  unfold afterLabel
  rw [hread]
  cases spaced <;> rfl

/-- A label that was read: its word, blanks and the colon. -/
theorem exists_of_afterLabel {cs r : List Char} (h : afterLabel word spaced cs = some r) :
    ∃ text gap, cs = text ++ gap ++ ':' :: r ∧ Spells text word
      ∧ ∀ c ∈ gap, isBlank c = true := by
  obtain ⟨behind, hword, hcolon⟩ := Option.bind_eq_some_iff.mp h
  obtain ⟨text, rfl, hspells⟩ := afterWord_eq_some_iff.mp hword
  have hbehind : ∃ gap, behind = gap ++ ':' :: r ∧ ∀ c ∈ gap, isBlank c = true := by
    unfold afterColon at hcolon
    split at hcolon
    · next more heq =>
        cases hcolon
        split at heq
        · refine ⟨behind.takeWhile isBlank, ?_, fun c hc => ?_⟩
          · rw [← heq]
            exact (List.takeWhile_append_dropWhile).symm
          · exact List.all_eq_true.mp List.all_takeWhile c hc
        · exact ⟨[], heq, fun c hc => nomatch hc⟩
    · cases hcolon
  obtain ⟨gap, rfl, hgap⟩ := hbehind
  exact ⟨text, gap, (List.append_assoc _ _ _).symm, hspells, hgap⟩

/-- No label is read without a colon. -/
theorem afterLabel_eq_none {cs : List Char} (h : ':' ∉ cs) : afterLabel word spaced cs = none := by
  rw [Option.eq_none_iff_forall_ne_some]
  intro r hread
  obtain ⟨text, gap, rfl, -, -⟩ := exists_of_afterLabel hread
  exact h (List.mem_append_right _ List.mem_cons_self)

/-- A label that is read before the first colon is all that stands before
it. -/
theorem spells_of_afterLabel {r : List Char} (hword : IsLabel word) (hfront : ':' ∉ front)
    (hlast : ∀ c ∈ front.getLast?, isBlank c = false)
    (h : afterLabel word spaced (front ++ ':' :: rest) = some r) : Spells front word := by
  obtain ⟨text, gap, hsame, hspells, hgap⟩ := exists_of_afterLabel h
  have hbefore : ':' ∉ text ++ gap := by
    rw [List.mem_append, not_or]
    exact ⟨hword.not_colon hspells, fun hmem => absurd (hgap ':' hmem) (by decide)⟩
  obtain ⟨rfl, -⟩ := append_separator_inj hfront hbefore hsame
  -- a gap would end the text in a blank
  rcases List.eq_nil_or_concat gap with rfl | ⟨more, last, hconcat⟩
  · rwa [List.append_nil]
  · rw [List.concat_eq_append] at hconcat
    subst hconcat
    have hblank : isBlank last = true := hgap last (List.mem_append_right _ List.mem_cons_self)
    have hnot : isBlank last = false := hlast last (by
      rw [← List.append_assoc, List.getLast?_concat]
      rfl)
    rw [hblank] at hnot
    cases hnot

-- =============================================================== scans

/-- The first clause with a label and a value that can be read. -/
def clause? (word : List Char) (spaced : Bool) (read : List Char → Option α) (cs : List Char) :
    Option α :=
  seek (fun rest => (afterLabel word spaced rest).bind read) cs

variable {read : List Char → Option α}

/-- A clause is found at its label. -/
theorem clause?_here {a : α} (hword : IsLabel word) (hfront : ':' ∉ front)
    (htext : Spells text word) (hread : read rest = some a) :
    clause? word spaced read (front ++ text ++ ':' :: rest) = some a := by
  have hhere : (afterLabel word spaced (text ++ ':' :: rest)).bind read = some a := by
    rw [afterLabel_of_spells htext]
    exact hread
  have hcolon : ':' ∉ text := hword.not_colon htext
  have hne : text ≠ [] := htext.ne_nil hword.1
  unfold clause?
  rw [List.append_assoc, seek_append fun tail htail hsome => ?_]
  · exact seek_of_eq_some hhere
  · -- a longer text before the colon spells no word of this length
    cases hlabel : afterLabel word spaced (tail ++ (text ++ ':' :: rest)) with
    | none => rfl
    | some r =>
        have hbefore : ':' ∉ tail ++ text := by
          rw [List.mem_append, not_or]
          exact ⟨fun hmem => hfront (htail.mem hmem), hcolon⟩
        have hlast : ∀ c ∈ (tail ++ text).getLast?, isBlank c = false := by
          intro c hc
          rw [List.getLast?_append_of_ne_nil _ hne] at hc
          exact hword.not_blank htext c (List.mem_of_getLast? hc)
        rw [← List.append_assoc] at hlabel
        have hlength := (spells_of_afterLabel hword hbefore hlast hlabel).length
        rw [List.length_append, htext.length] at hlength
        exact absurd (List.eq_nil_of_length_eq_zero (by omega)) hsome

/-- A scan goes on behind a colon that no label stands before. -/
theorem clause?_past (hword : IsLabel word) (hfront : ':' ∉ front)
    (hlast : ∀ c ∈ front.getLast?, isBlank c = false)
    (hnot : ∀ tail, tail <:+ front → ¬Spells tail word) :
    clause? word spaced read (front ++ ':' :: rest) = clause? word spaced read rest := by
  have hpart : front ++ ':' :: rest = (front ++ [':']) ++ rest := by
    rw [List.append_assoc]
    rfl
  unfold clause?
  rw [hpart, seek_append fun tail htail hsome => ?_]
  rcases List.suffix_concat_iff.mp htail with rfl | ⟨before, rfl, hbefore⟩
  · exact absurd rfl hsome
  · rw [List.append_assoc, List.singleton_append]
    cases hlabel : afterLabel word spaced (before ++ ':' :: rest) with
    | none => rfl
    | some r =>
        have hend : ∀ c ∈ before.getLast?, isBlank c = false := by
          intro c hc
          obtain ⟨more, rfl⟩ := hbefore
          exact hlast c (by rw [List.getLast?_append, hc]; rfl)
        exact absurd (spells_of_afterLabel hword (fun hmem => hfront (hbefore.mem hmem)) hend hlabel)
          (hnot before hbefore)

/-- No clause is found without a colon. -/
theorem clause?_eq_none {cs : List Char} (h : ':' ∉ cs) : clause? word spaced read cs = none :=
  seek_eq_none fun tail htail => by
    rw [afterLabel_eq_none fun hmem => h (htail.mem hmem)]
    rfl

end Daybook.Clause
