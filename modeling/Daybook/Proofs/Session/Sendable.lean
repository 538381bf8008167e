/-
What an instruction names can be sent as it is.

Tags are sent as one text with commas between them, so a tag that held a comma
would be two.  Every reader of tags stops at a quote and cuts at the commas,
and a tag is trimmed when it is cut off (`isSendable_of_mem_tagList`); a
hashtag is a single word.  So whatever the line is, the tags that are read
from it are the pieces of the text that is sent, and an id and a category are
made of the characters of their own (`sendable_read`).
-/
import Daybook.Proofs.Instruction.Value
import Daybook.Proofs.Session.Deletion

namespace Daybook

open Text Backend

namespace Clause

-- ================================================================== tags

variable {cs value tag : List Char}

/-- Without a quote in it, a list has no tag but trimmed ones. -/
theorem isSendable_of_mem_tagList (hvalue : ∀ c ∈ value, isQuote c = false) (h : tag ∈ tagList value) :
    IsSendable tag := by
  have hcomma := not_mem_of_mem_tagList h
  have hne := ne_nil_of_mem_tagList h
  obtain ⟨cell, hcell, rfl⟩ := List.mem_map.mp (List.mem_filter.mp h).1
  obtain ⟨piece, hpiece, rfl⟩ := List.mem_map.mp hcell
  have hquote : ∀ c ∈ trim piece, isQuote c = false := fun c hc =>
    hvalue c (mem_of_mem_cut hpiece (mem_of_mem_trim hc))
  rw [unquoted_of_no_quote hquote] at hcomma hne ⊢
  exact ⟨hne, trim_trim piece, fun c hc => ⟨fun heq => hcomma (heq ▸ hc), hquote c hc⟩⟩

theorem isSendable_of_mem_hashtags (h : tag ∈ hashtags cs) : IsSendable tag :=
  IsTag.isSendable (IsWord.isTag ⟨ne_nil_of_mem_hashtags h, isWordChar_of_mem_hashtags h⟩)

/-- A tags clause holds no quote. -/
theorem not_quote_of_memoryTagsValue (h : memoryTagsValue cs = some value) :
    ∀ c ∈ value, isQuote c = false := by
  induction cs generalizing value with
  | nil =>
      cases h
      exact fun c hc => nomatch hc
  | cons d cs ih =>
      unfold memoryTagsValue at h
      split at h
      · cases h
        exact fun c hc => nomatch hc
      · next hend =>
          split at h
          · cases h
          · obtain ⟨more, hmore, rfl⟩ := Option.map_eq_some_iff.mp h
            simp only [Bool.or_eq_true, not_or, Bool.not_eq_true] at hend
            intro c hc
            rcases List.mem_cons.mp hc with rfl | hc
            · exact hend.1.1
            · exact ih hmore c hc

theorem isSendable_of_mem_memoryTags (h : tag ∈ memoryTags cs) : IsSendable tag := by
  have hvalue : ∀ c ∈ (seek (fun rest => (afterWord "tags:".toList rest).bind fun value =>
      memoryTagsValue (skipBlank value)) cs).getD [], isQuote c = false := by
    cases hseek : seek (fun rest => (afterWord "tags:".toList rest).bind fun value =>
        memoryTagsValue (skipBlank value)) cs with
    | none => exact fun c hc => nomatch hc
    | some value =>
        obtain ⟨rest, -, hread⟩ := exists_suffix_of_seek hseek
        obtain ⟨behind, -, hclause⟩ := Option.bind_eq_some_iff.mp hread
        exact not_quote_of_memoryTagsValue hclause
  unfold memoryTags at h
  dsimp only at h
  split at h
  · exact isSendable_of_mem_hashtags h
  · exact isSendable_of_mem_tagList hvalue h

theorem isSendable_of_mem_filterTags {hashtagsCount : Bool} (h : tag ∈ filterTags hashtagsCount cs) :
    IsSendable tag := by
  unfold filterTags at h
  split at h
  · next value hseek =>
      refine isSendable_of_mem_tagList (fun c hc => ?_) h
      obtain ⟨rest, -, hread⟩ := exists_suffix_of_seek hseek
      obtain ⟨word, -, hvalue⟩ := List.exists_of_findSome?_eq_some hread
      obtain ⟨behind, -, rfl⟩ := Option.map_eq_some_iff.mp hvalue
      obtain ⟨more, hstop⟩ := not_stop_of_mem_takeUntil hc
      simp only [filterTagsEnd, Bool.or_eq_false_iff] at hstop
      exact hstop.1.1.1
  · split at h
    · exact isSendable_of_mem_hashtags h
    · cases h

theorem isSendable_of_mem_pictureTags (h : tag ∈ pictureTags cs) : IsSendable tag := by
  unfold pictureTags at h
  split at h
  · next value hseek =>
      refine isSendable_of_mem_tagList (fun c hc => ?_) h
      obtain ⟨rest, -, hread⟩ := exists_suffix_of_seek hseek
      obtain ⟨behind, -, hrun⟩ := Option.bind_eq_some_iff.mp hread
      simpa using (all_of_run? hrun).2 c hc
  · cases h

end Clause

-- ============================================================== what is sent

/-- Tags that are told apart when they are sent.  Where there are none, none
are sent; where there are some, the text that is sent has them between its
commas. -/
structure SendableTags (tags : List String) : Prop where
  plain : ∀ tag ∈ tags, tag ≠ "" ∧ trimmed tag = tag ∧ ∀ c ∈ tag.toList, c ∉ [',', '"', '\'']
  absent : tags = [] → tagsParam (.strings tags) = .ok []
  parted : tags ≠ [] → ∃ text : String, tagsText (.strings tags) = .ok text
    ∧ tagsParam (.strings tags) = .ok [("tags", .str text)]
    ∧ (cut ',' text.toList).map String.ofList = tags

/-- Whether what an instruction names can be sent as it is: its tags, its
category and its id. -/
def Instruction.Sendable : Instruction → Prop
  | .createMemory _ category tags => SendableTags tags
    ∧ ∀ word ∈ category, word ≠ "" ∧ ∀ c ∈ word.toList, isWordChar c = true
  | .savePicture _ tags => SendableTags tags
  | .editMemory id _ => ∀ text ∈ id, text ≠ "" ∧ ∀ c ∈ text.toList, Clause.isIdChar c = true
  | .delete deletion => SendableTags deletion.tags
    ∧ (∀ word ∈ deletion.category, word ≠ "" ∧ ∀ c ∈ word.toList, isWordChar c = true)
    ∧ ∀ text ∈ deletion.id, text ≠ "" ∧ ∀ c ∈ text.toList, Clause.isIdChar c = true
  | .retrieve query => SendableTags query.tags
    ∧ ∀ field ∈ Session.queryParams query, field.1 = "tags" →
      query.tags ≠ [] ∧ field.2 = .strings query.tags
  | _ => True

theorem sendableTags_strings {tags : List (List Char)} (h : ∀ tag ∈ tags, Clause.IsSendable tag) :
    SendableTags (Instruction.strings tags) where
  plain := fun text htext => by
    obtain ⟨tag, hmem, rfl⟩ := List.mem_map.mp htext
    obtain ⟨hne, htrim, hchars⟩ := h tag hmem
    refine ⟨fun hempty => hne (String.ofList_eq_empty_iff.mp hempty), ?_, fun c hc => ?_⟩
    · rw [trimmed, String.toList_ofList, htrim]
    · rw [String.toList_ofList] at hc
      obtain ⟨hcomma, hquote⟩ := hchars c hc
      simp only [Clause.isQuote, Bool.or_eq_false_iff, beq_eq_false_iff_ne] at hquote
      simp [hcomma, hquote]
  absent := fun hnil => by rw [hnil]; rfl
  parted := fun hne => by
    have hcomma : ",".toList = [','] := by decide
    refine ⟨_, tagsText_strings _, ?_, ?_⟩
    · rw [tagsParam_strings, if_neg hne]
    · have hlists : (Instruction.strings tags).map String.toList = tags := by
        simp [Instruction.strings]
      have hsome : tags ≠ [] := fun hnil => hne (by rw [hnil]; rfl)
      rw [String.toList_intercalate, hcomma, hlists,
        cut_intercalate_separator hsome fun tag hmem hin => ((h tag hmem).chars ',' hin).1 rfl]
      rfl

/-- Tags are a filter of a query only if there are some. -/
theorem Session.tags_of_queryParams {query : Query} : ∀ field ∈ queryParams query, field.1 = "tags" →
    query.tags ≠ [] ∧ field.2 = .strings query.tags := by
  intro field hmem hkey
  have hother : ∀ {key : JsonString} {value : Json}, field ∈ ([(key, value)] : Record) →
      key ≠ "tags" → query.tags ≠ [] ∧ field.2 = .strings query.tags := fun hfield hne => by
    rw [List.mem_singleton.mp hfield] at hkey
    exact absurd hkey hne
  unfold queryParams at hmem
  simp only [List.mem_append] at hmem
  rcases hmem with (((hmem | hmem) | hmem) | hmem) | hmem
  · split at hmem
    · exact hother hmem (by decide)
    · cases hmem
  · split at hmem
    · cases hmem
    · next htags =>
        rw [List.mem_singleton.mp hmem]
        exact ⟨htags, rfl⟩
  · split at hmem
    · exact hother hmem (by decide)
    · cases hmem
  · split at hmem
    · exact hother hmem (by decide)
    · cases hmem
  · split at hmem
    · exact hother hmem (by decide)
    · cases hmem

namespace Instruction

variable {cs : List Char}

theorem word_of_category? : ∀ word ∈ (Clause.category? cs).map String.ofList,
    word ≠ "" ∧ ∀ c ∈ word.toList, isWordChar c = true := by
  intro word hword
  obtain ⟨value, hvalue, rfl⟩ := Option.map_eq_some_iff.mp hword
  obtain ⟨hne, hchars⟩ := Clause.category?_spec hvalue
  exact ⟨fun hempty => hne (String.ofList_eq_empty_iff.mp hempty), by rwa [String.toList_ofList]⟩

theorem text_of_id? : ∀ text ∈ (Clause.id? cs).map String.ofList,
    text ≠ "" ∧ ∀ c ∈ text.toList, Clause.isIdChar c = true := by
  intro text htext
  obtain ⟨value, hvalue, rfl⟩ := Option.map_eq_some_iff.mp htext
  obtain ⟨hne, hchars⟩ := Clause.id?_spec hvalue
  exact ⟨fun hempty => hne (String.ofList_eq_empty_iff.mp hempty), by rwa [String.toList_ofList]⟩

/-- Whatever a line is, what is read from it can be sent as it is. -/
theorem sendable_read (line : String) : (read line).Sendable := by
  have hbranch {condition : Prop} [Decidable condition] {first other : Instruction}
      (hfirst : first.Sendable) (hother : other.Sendable) :
      (if condition then first else other).Sendable :=
    iteInduction (fun _ => hfirst) fun _ => hother
  unfold read readChars readHeaded
  dsimp only
  -- one branch for each command, in the order in which their words are looked for
  refine hbranch trivial ?_
  refine hbranch ⟨sendableTags_strings fun _ => Clause.isSendable_of_mem_memoryTags, word_of_category?⟩ ?_
  refine hbranch trivial (hbranch trivial (hbranch trivial ?_))
  refine hbranch (sendableTags_strings fun _ => Clause.isSendable_of_mem_pictureTags) ?_
  refine hbranch text_of_id? ?_
  refine hbranch ⟨sendableTags_strings fun _ => Clause.isSendable_of_mem_filterTags, word_of_category?,
    text_of_id?⟩ ?_
  refine hbranch ⟨sendableTags_strings fun _ => Clause.isSendable_of_mem_filterTags,
    Session.tags_of_queryParams⟩ ?_
  exact hbranch trivial (hbranch trivial trivial)

end Instruction
end Daybook
