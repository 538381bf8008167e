/-
A picture to be saved, written out in a line.

The description stands in quotes behind its label, and all that stands behind
the label of the tags is cut at its commas.  Neither the description nor a tag
holds a colon, so the two labels stand before the only colons of the line, and
a scan for a label finds it there or not at all.
-/
import Daybook.Proofs.Instruction.Creation

namespace Daybook

open Text

namespace Clause

-- ============================================================ the readings

/-- The description is found behind its label. -/
theorem description?_eq (cs : List Char) : description? cs
    = clause? "description".toList false (fun value => quotedHere (skipBlank value)) cs := by
  unfold description? clause?
  simp only [← afterWord_concat_colon]
  rfl

theorem isLabel_description : IsLabel "description".toList := ⟨by decide, forall_mem_of_all (by decide)⟩

/-- The reading of the tags of a picture in a line. -/
def picturedTags? (cs : List Char) : Option (List Char) :=
  clause? "tags".toList false (run? fun c => !isQuote c) cs

theorem pictureTags_eq (cs : List Char) : pictureTags cs
    = match picturedTags? cs with
      | some value => tagList value
      | none => [] := by
  unfold pictureTags picturedTags? clause?
  simp only [← afterWord_concat_colon]
  rfl

-- ================================================================ the line

/-- The line of a picture to be saved. -/
def picture (content : List Char) (tags : List (List Char)) : List Char :=
  "save picture ".toList ++ "description".toList ++ ':' :: (inQuotes content ++ tagsClause tags)

variable {content : List Char} {tags : List (List Char)}

theorem description?_picture (hne : content ≠ []) (hcontent : ∀ c ∈ content, isQuote c = false) :
    description? (picture content tags) = some content := by
  have hquoted : quotedHere (skipBlank (inQuotes content ++ tagsClause tags)) = some content := by
    have hvalue : inQuotes content ++ tagsClause tags = ' ' :: '"' :: (content ++ '"' :: tagsClause tags) := by
      simp [inQuotes]
    rw [hvalue, skipBlank_blank (by decide), skipBlank_of_not_blank (by decide)]
    exact quotedHere_append rfl hne hcontent rfl
  rw [description?_eq]
  exact clause?_here isLabel_description (by decide) rfl hquoted

/-- The scan for the tags goes on behind the label of the description. -/
theorem picturedTags?_past (content : List Char) (tags : List (List Char)) :
    picturedTags? (picture content tags) = picturedTags? (inQuotes content ++ tagsClause tags) := by
  have hquiet : ∀ tail ∈ ("save picture ".toList ++ "description".toList).tails,
      tail.map fold ≠ "tags".toList := by decide
  exact clause?_past isLabel_tags (by decide) (forall_mem_of_option (by decide)) fun tail htail =>
    hquiet tail ((List.mem_tails tail _).mpr htail)

/-- The tags are found behind their label, to the end of the line. -/
theorem picturedTags?_found (hcontent : ':' ∉ content) (hne : tags ≠ [])
    (htags : ∀ tag ∈ tags, IsSendable tag) :
    picturedTags? (inQuotes content ++ tagsClause tags) = some (' ' :: [',', ' '].intercalate tags) := by
  have hfront : ':' ∉ inQuotes content ++ [' '] := by simpa [inQuotes] using hcontent
  have hplain : ∀ c ∈ ' ' :: [',', ' '].intercalate tags, (!isQuote c) = true := by
    intro c hc
    rcases List.mem_cons.mp hc with rfl | hc
    · decide
    rcases mem_intercalate hc with rfl | rfl | ⟨tag, hmem, hc⟩
    · decide
    · decide
    · rw [((htags tag hmem).chars c hc).2]
      rfl
  have hvalue : run? (fun c => !isQuote c) (' ' :: [',', ' '].intercalate tags ++ [])
      = some (' ' :: [',', ' '].intercalate tags) := by
    refine run?_append (List.cons_ne_nil _ _) hplain fun c hc => ?_
    cases hc
  rw [List.append_nil] at hvalue
  have hline : inQuotes content ++ tagsClause tags
      = inQuotes content ++ [' '] ++ "tags".toList ++ ':' :: ' ' :: [',', ' '].intercalate tags := by
    obtain ⟨tag, more, htag⟩ := List.exists_cons_of_ne_nil hne
    rw [htag, List.append_assoc, List.append_assoc]
    rfl
  rw [hline]
  exact clause?_here isLabel_tags hfront rfl hvalue

theorem pictureTags_picture (hcontent : ':' ∉ content) (htags : ∀ tag ∈ tags, IsSendable tag) :
    pictureTags (picture content tags) = tags := by
  rw [pictureTags_eq, picturedTags?_past]
  by_cases hnil : tags = []
  · have hquotes : ':' ∉ inQuotes content := by simpa [inQuotes] using hcontent
    have hnone : picturedTags? (inQuotes content ++ tagsClause []) = none := by
      rw [tagsClause, List.append_nil]
      exact clause?_eq_none hquotes
    rw [hnil, hnone]
  · rw [picturedTags?_found hcontent hnil htags]
    dsimp only
    rw [tagList_blank, tagList_sendable hnil htags]

/-- The line neither begins nor ends with a blank. -/
theorem trim_picture (htags : ∀ tag ∈ tags, IsSendable tag) :
    trim (picture content tags) = picture content tags := by
  refine (trim_eq_self_iff _).mpr ⟨fun c hc => ?_, fun c hc => ?_⟩
  · have hfirst : (picture content tags).head? = some 's' := rfl
    rw [hfirst] at hc
    cases hc
    decide
  · have hends : ∀ front last : List Char, picture content tags = front ++ last → last ≠ [] →
        (∀ d ∈ last.getLast?, isBlank d = false) → isBlank c = false := by
      intro front last hline hne hlast
      rw [hline, List.getLast?_append_of_ne_nil _ hne] at hc
      exact hlast c hc
    -- the words at the head are left alone, whatever they are
    cases tags with
    | nil =>
        have hline (opening : List Char) : opening ++ ':' :: (inQuotes content ++ tagsClause [])
            = (opening ++ ':' :: ' ' :: '"' :: content) ++ ['"'] := by simp [inQuotes, tagsClause]
        refine hends _ _ (hline _) (List.cons_ne_nil _ _) fun d hd => ?_
        cases hd
        decide
    | cons tag tags =>
        have hline (opening : List Char) : opening ++ ':' :: (inQuotes content ++ tagsClause (tag :: tags))
            = (opening ++ ':' :: (inQuotes content ++ (" tags".toList ++ [':', ' '])))
              ++ [',', ' '].intercalate (tag :: tags) := by simp [tagsClause]
        refine hends _ _ (hline _) (fun hempty => ?_) (last_sendable htags)
        have hlist := tagList_sendable (List.cons_ne_nil tag tags) htags
        rw [hempty] at hlist
        cases hlist

end Clause

namespace Instruction

-- =============================================================== round trip

/-- A line that asks for a picture to be saved: the description between quotes
and the tags joined by commas. -/
def pictureLine (description : String) (tags : List String) : String :=
  "save picture description: \"" ++ description ++ "\""
    ++ (if tags = [] then "" else " tags: " ++ ", ".intercalate tags)

/-- What can be said of a picture in its line. -/
structure Sayable (description : String) (tags : List String) : Prop where
  description_plain : description ≠ "" ∧ ∀ c ∈ description.toList, c ∉ ['"', '\'', ':']
  tags_plain : ∀ tag ∈ tags, tag ≠ "" ∧ trimmed tag = tag ∧
    ∀ c ∈ tag.toList, c ∉ [',', '"', '\'', ':']

variable {description : String} {tags : List String}

theorem toList_pictureLine : (pictureLine description tags).toList
    = Clause.picture description.toList (tags.map String.toList) := by
  have hopening : "save picture description: \"".toList
      = "save picture ".toList ++ "description".toList ++ [':', ' ', '"'] := by decide
  have hquote : "\"".toList = ['"'] := by decide
  unfold pictureLine Clause.picture Clause.inQuotes
  simp only [String.toList_append, toList_tagsClause, hopening, hquote, List.append_assoc, List.cons_append,
    List.nil_append]

theorem Sayable.isSendable (h : Sayable description tags) :
    ∀ tag ∈ tags.map String.toList, Clause.IsSendable tag := by
  intro text htext
  obtain ⟨tag, hmem, rfl⟩ := List.mem_map.mp htext
  obtain ⟨hne, htrim, hchars⟩ := h.tags_plain tag hmem
  refine ⟨fun hnil => hne (String.toList_eq_nil_iff.mp hnil), ?_, fun c hc => ?_⟩
  · rw [← toList_trimmed, htrim]
  · have hplain := hchars c hc
    simp only [List.mem_cons, List.not_mem_nil, or_false, not_or] at hplain
    simp [Clause.isQuote, hplain]

/-- The line is trimmed as it is. -/
theorem trimmed_pictureLine (h : Sayable description tags) :
    trimmed (pictureLine description tags) = pictureLine description tags := by
  rw [trimmed, toList_pictureLine, Clause.trim_picture h.isSendable, ← toList_pictureLine,
    String.ofList_toList]

/-- What is said of a picture is read back from its line. -/
theorem read_pictureLine (h : Sayable description tags) :
    read (pictureLine description tags) = .savePicture (some description) tags := by
  have hne : description.toList ≠ [] := fun hnil => h.description_plain.1 (String.toList_eq_nil_iff.mp hnil)
  have hquotes : ∀ c ∈ description.toList, Clause.isQuote c = false := by
    intro c hc
    have hplain := h.description_plain.2 c hc
    simp only [List.mem_cons, List.not_mem_nil, or_false, not_or] at hplain
    simp [Clause.isQuote, hplain]
  have hcolon : ':' ∉ description.toList := fun hc => h.description_plain.2 ':' hc (by decide)
  have hopening : read (pictureLine description tags)
      = readSavePicture (Clause.picture description.toList (tags.map String.toList)) := by
    unfold read
    rw [toList_pictureLine]
    exact readChars_savePicture _
  rw [hopening]
  unfold readSavePicture
  rw [Clause.description?_picture hne hquotes, Clause.pictureTags_picture hcolon h.isSendable, Option.map_some,
    String.ofList_toList, strings_map_toList]

end Instruction
end Daybook
