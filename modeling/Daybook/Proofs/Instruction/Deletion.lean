/-
What a deletion names when it is read from a line.

Every clause reader takes a run of characters that is not empty, or drops
the empty pieces of a list, so an id, a category or a tag that a deletion
names says something.
-/
import Daybook.Instruction.Read
import Mathlib.Logic.Basic

namespace Daybook

open Text

namespace Clause

-- ============================================================== clauses

/-- An identifier is a run of letters, digits, dashes and underscores. -/
theorem id?_spec {cs id : List Char} (h : id? cs = some id) :
    id ≠ [] ∧ ∀ c ∈ id, isIdChar c = true := by
  obtain ⟨rest, -, hread⟩ := exists_suffix_of_seek h
  split at hread
  · exact all_of_run? hread
  · cases hread

/-- A category is one word. -/
theorem category?_spec {cs category : List Char} (h : category? cs = some category) :
    category ≠ [] ∧ ∀ c ∈ category, isWordChar c = true := by
  obtain ⟨rest, -, hread⟩ := exists_suffix_of_seek h
  obtain ⟨value, -, hrun⟩ := Option.bind_eq_some_iff.mp hread
  exact all_of_run? hrun

/-- No tag is empty, wherever it is read from. -/
theorem ne_nil_of_mem_tagList {cs tag : List Char} (h : tag ∈ tagList cs) : tag ≠ [] :=
  of_decide_eq_true (List.mem_filter.mp h).2

theorem ne_nil_of_mem_hashtags {cs tag : List Char} (h : tag ∈ hashtags cs) : tag ≠ [] := by
  induction cs with
  | nil => cases h
  | cons c cs ih =>
      unfold hashtags at h
      split at h
      · split at h
        · next value hrun =>
            rcases List.mem_cons.mp h with rfl | h
            · exact (all_of_run? hrun).1
            · exact ih h
        · exact ih h
      · exact ih h

theorem ne_nil_of_mem_filterTags {hashtagsCount : Bool} {cs tag : List Char}
    (h : tag ∈ filterTags hashtagsCount cs) : tag ≠ [] := by
  unfold filterTags at h
  split at h
  · exact ne_nil_of_mem_tagList h
  · split at h
    · exact ne_nil_of_mem_hashtags h
    · cases h

/-- Taking characters off the ends of a text adds none. -/
theorem mem_of_mem_ends {drop : Char → Bool} {cs : List Char} {c : Char}
    (h : c ∈ ((cs.dropWhile drop).reverse.dropWhile drop).reverse) : c ∈ cs :=
  (List.dropWhile_suffix drop).mem
    (List.mem_reverse.mp ((List.dropWhile_suffix drop).mem (List.mem_reverse.mp h)))

/-- The tags of a list are what stands between its commas. -/
theorem not_mem_of_mem_tagList {cs tag : List Char} (h : tag ∈ tagList cs) : ',' ∉ tag := by
  obtain ⟨cell, hcell, rfl⟩ := List.mem_map.mp (List.mem_filter.mp h).1
  obtain ⟨piece, hpiece, rfl⟩ := List.mem_map.mp hcell
  exact fun hmem => not_mem_of_mem_cut hpiece (mem_of_mem_ends (mem_of_mem_ends hmem))

/-- A hashtag is one word. -/
theorem isWordChar_of_mem_hashtags {cs tag : List Char} (h : tag ∈ hashtags cs) :
    ∀ c ∈ tag, isWordChar c = true := by
  induction cs with
  | nil => cases h
  | cons c cs ih =>
      unfold hashtags at h
      split at h
      · split at h
        · next value hrun =>
            rcases List.mem_cons.mp h with rfl | h
            · exact (all_of_run? hrun).2
            · exact ih h
        · exact ih h
      · exact ih h

/-- There is no comma in a tag, so that joined tags can be told apart. -/
theorem not_mem_of_mem_filterTags {hashtagsCount : Bool} {cs tag : List Char}
    (h : tag ∈ filterTags hashtagsCount cs) : ',' ∉ tag := by
  unfold filterTags at h
  split at h
  · exact not_mem_of_mem_tagList h
  · split at h
    · intro hmem
      exact absurd (isWordChar_of_mem_hashtags h ',' hmem) (by decide)
    · cases h

end Clause

-- ============================================================= deletions

/-- Whether all that a deletion names says something, and its id is made
of letters, digits, underscores and hyphens. -/
structure Deletion.Plain (deletion : Deletion) : Prop where
  id : ∀ id, deletion.id = some id → id ≠ "" ∧ ∀ c ∈ id.toList, Clause.isIdChar c = true
  tags : ∀ tag ∈ deletion.tags, tag ≠ ""
  category : ∀ category, deletion.category = some category → category ≠ ""

namespace Instruction

/-- Whatever the line, the deletion read from it is plain. -/
theorem plain_readDeletion (cs : List Char) : (readDeletion cs).Plain := by
  refine ⟨fun id hid => ?_, fun tag htag => ?_, fun category hcategory => ?_⟩
  · obtain ⟨value, hvalue, rfl⟩ := Option.map_eq_some_iff.mp hid
    obtain ⟨hne, hchars⟩ := Clause.id?_spec hvalue
    refine ⟨fun hempty => hne (String.ofList_eq_empty_iff.mp hempty), ?_⟩
    rw [String.toList_ofList]
    exact hchars
  · obtain ⟨value, hvalue, rfl⟩ := List.mem_map.mp htag
    rw [ne_eq, String.ofList_eq_empty_iff]
    exact Clause.ne_nil_of_mem_filterTags hvalue
  · obtain ⟨value, hvalue, rfl⟩ := Option.map_eq_some_iff.mp hcategory
    rw [ne_eq, String.ofList_eq_empty_iff]
    exact (Clause.category?_spec hvalue).1

/-- Only the words of a deletion are read as one. -/
theorem eq_readDeletion {cs : List Char} {deletion : Deletion}
    (h : readChars cs = .delete deletion) : deletion = readDeletion cs := by
  unfold readChars readHeaded at h
  dsimp only at h
  -- the branches before and behind that of a deletion give other instructions
  obtain ⟨-, h⟩ | ⟨-, h⟩ := ite_eq_iff.mp h
  · cases h
  obtain ⟨-, h⟩ | ⟨-, h⟩ := ite_eq_iff.mp h
  · cases h
  obtain ⟨-, h⟩ | ⟨-, h⟩ := ite_eq_iff.mp h
  · cases h
  obtain ⟨-, h⟩ | ⟨-, h⟩ := ite_eq_iff.mp h
  · cases h
  obtain ⟨-, h⟩ | ⟨-, h⟩ := ite_eq_iff.mp h
  · cases h
  obtain ⟨-, h⟩ | ⟨-, h⟩ := ite_eq_iff.mp h
  · cases h
  obtain ⟨-, h⟩ | ⟨-, h⟩ := ite_eq_iff.mp h
  · cases h
  obtain ⟨-, h⟩ | ⟨-, h⟩ := ite_eq_iff.mp h
  · exact (Instruction.delete.inj h).symm
  obtain ⟨-, h⟩ | ⟨-, h⟩ := ite_eq_iff.mp h
  · cases h
  obtain ⟨-, h⟩ | ⟨-, h⟩ := ite_eq_iff.mp h
  · cases h
  obtain ⟨-, h⟩ | ⟨-, h⟩ := ite_eq_iff.mp h
  · cases h
  · cases h

theorem plain_of_read {line : String} {deletion : Deletion}
    (h : read line = .delete deletion) : deletion.Plain :=
  eq_readDeletion h ▸ plain_readDeletion line.toList

/-- A tag that is read from a line holds no comma. -/
theorem not_mem_of_read {line : String} {deletion : Deletion} (h : read line = .delete deletion) :
    ∀ tag ∈ deletion.tags, ',' ∉ tag.toList := by
  intro tag htag
  rw [eq_readDeletion h] at htag
  obtain ⟨value, hvalue, rfl⟩ := List.mem_map.mp htag
  rw [String.toList_ofList]
  exact Clause.not_mem_of_mem_filterTags hvalue

end Instruction
end Daybook
