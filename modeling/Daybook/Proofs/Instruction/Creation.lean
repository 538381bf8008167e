/-
A memory to be created, written out and read again.

The line puts the content between quotes, then the tags behind `tags:`,
then the category behind `category:`.  Four scans go over that line, each
for itself, and none may take what belongs to another field: content and
tags hold no colon, so the only labels are the three that the line was
built with.  One place is left where fields can touch: a link `in` before
`category:` belongs to the category clause, so a last tag that ends in
those letters loses them (`link_of_categoryAhead`).  Every other memory is
read back as it was written (`read_creationLine`).
-/
import Daybook.Proofs.Instruction.Link
import Daybook.Proofs.Instruction.Opening
import Daybook.Proofs.Instruction.Value
import Mathlib.Data.List.Infix

namespace Daybook.Clause

open Text

variable {tags : List (List Char)}

-- ================================================ a category clause ahead

theorem isLabel_category : IsLabel "category".toList := ⟨by decide, forall_mem_of_all (by decide)⟩

theorem isLabel_in : IsLabel "in".toList := ⟨by decide, forall_mem_of_all (by decide)⟩

/-- No category clause begins where there is no colon. -/
theorem categoryAhead_eq_false {spaced : Bool} {cs : List Char} (h : ':' ∉ cs) :
    categoryAhead spaced cs = false := by
  show (afterLinked "in" "category".toList spaced cs).isSome = false
  rw [afterLinked_eq_none h]
  rfl

/-- The category clause behind a text begins within the text only at a
link that ends it. -/
theorem link_of_categoryAhead {spaced : Bool} {tail rest : List Char} (hne : tail ≠ [])
    (hcolon : ':' ∉ tail) (hlast : ∀ c ∈ tail.getLast?, isBlank c = false)
    (h : categoryAhead spaced (tail ++ " category".toList ++ ':' :: rest) = true) :
    ∃ front text, tail = front ++ text ∧ Spells text "in".toList := by
  obtain ⟨r, hread⟩ := Option.isSome_iff_exists.mp h
  change afterLinked "in" "category".toList spaced
    (tail ++ " category".toList ++ ':' :: rest) = some r at hread
  rw [List.append_assoc] at hread
  rcases ((afterLinked_eq_some_iff isLabel_in isLabel_category rfl hcolon hlast).mp hread).2
    with hnil | ⟨gap, letters, hsame, -, hletters⟩
  · exact absurd hnil hne
  · exact ⟨gap, letters, hsame, hletters⟩

-- =================================================== the tags clause

/-- The value of a tags clause runs to the first place where it can
end. -/
theorem memoryTagsValue_append {text rest : List Char}
    (hchars : ∀ c ∈ text, c ≠ '\n' ∧ isQuote c = false)
    (hnot : ∀ tail, tail <:+ text → tail ≠ [] → categoryAhead false (tail ++ rest) = false)
    (hend : memoryTagsValue rest = some []) : memoryTagsValue (text ++ rest) = some text := by
  induction text with
  | nil => exact hend
  | cons c text ih =>
      obtain ⟨hbreak, hquote⟩ := hchars c List.mem_cons_self
      have hahead : categoryAhead false (c :: (text ++ rest)) = false :=
        hnot (c :: text) (List.suffix_refl _) (List.cons_ne_nil c text)
      have hrest : memoryTagsValue (text ++ rest) = some text :=
        ih (fun d hd => hchars d (List.mem_cons_of_mem c hd))
          fun tail htail => hnot tail (htail.trans (List.suffix_cons c text))
      rw [List.cons_append, memoryTagsValue, hquote, hahead, beq_false_of_ne hbreak, if_neg hbreak,
        hrest]
      rfl

/-- What follows the tags in a line: nothing, or the category clause. -/
def categoryClause : Option (List Char) → List Char
  | none => []
  | some category => " category".toList ++ ':' :: ' ' :: category

/-- A list of tags ends in a link only if its last tag does. -/
theorem link_of_intercalate {text : List Char} (h : ∀ tag ∈ tags, IsTag tag)
    (htext : Spells text "in".toList) (hend : text <:+ [',', ' '].intercalate tags) :
    ∃ last ∈ tags.getLast?, "in".toList <:+ last.map fold := by
  rcases List.eq_nil_or_concat tags with rfl | ⟨before, last, hconcat⟩
  · have hnil : text = [] := List.suffix_nil.mp hend
    rw [hnil] at htext
    cases htext
  · rw [List.concat_eq_append] at hconcat
    have hlast := h last (by rw [hconcat]; exact List.mem_append_right _ List.mem_cons_self)
    obtain ⟨front, hline, hblank⟩ := intercalate_concat before last
    rw [hconcat, hline] at hend
    refine ⟨last, by rw [hconcat, List.getLast?_concat]; rfl, ?_⟩
    rcases List.suffix_or_suffix_of_suffix hend (List.suffix_append front last) with hin | hin
    · rw [← htext]
      exact hin.map fold
    · obtain ⟨begin, rfl⟩ := hin
      rcases List.eq_nil_or_concat begin with rfl | ⟨begin, c, hbegin⟩
      · rw [← htext]
        exact List.suffix_refl _
      · -- the letters of the link would stand on both sides of a blank
        rw [List.concat_eq_append] at hbegin
        subst hbegin
        obtain ⟨more, hmore⟩ := hend
        rw [← List.append_assoc, ← List.append_assoc] at hmore
        have hfront := List.append_cancel_right hmore
        have hc : c = ' ' := hblank c (by rw [← hfront, List.getLast?_concat]; rfl)
        subst hc
        have hmem : ' ' ∈ begin ++ [' '] ++ last :=
          List.mem_append_left _ (List.mem_append_right _ List.mem_cons_self)
        exact absurd hmem (htext.not_mem (by decide) (by decide))

/-- The value of the tags clause is the list of the tags. -/
theorem memoryTagsValue_line {category : Option (List Char)} (hne : tags ≠ [])
    (h : ∀ tag ∈ tags, IsTag tag)
    (hlink : category ≠ none → ∀ last ∈ tags.getLast?, ¬"in".toList <:+ last.map fold) :
    memoryTagsValue (skipBlank (' ' :: ([',', ' '].intercalate tags ++ categoryClause category)))
      = some ([',', ' '].intercalate tags) := by
  have hchars := chars_intercalate h
  rw [(skipBlank_intercalate hne h _).1]
  refine memoryTagsValue_append (fun c hc => (hchars c hc).2) (fun tail htail hsome => ?_) ?_
  · have hcolon : ':' ∉ tail := fun hmem => (hchars ':' (htail.mem hmem)).1 rfl
    cases category with
    | none =>
        show categoryAhead false (tail ++ []) = false
        rw [List.append_nil]
        exact categoryAhead_eq_false hcolon
    | some category =>
        refine Bool.eq_false_iff.mpr fun hahead => ?_
        have hlast : ∀ c ∈ tail.getLast?, isBlank c = false := by
          obtain ⟨front, hfront⟩ := htail
          intro c hc
          refine last_intercalate h c ?_
          rw [← hfront, List.getLast?_append_of_ne_nil _ hsome]
          exact hc
        change categoryAhead false (tail ++ (" category".toList ++ ':' :: ' ' :: category)) = true
          at hahead
        rw [← List.append_assoc] at hahead
        obtain ⟨front, text, rfl, htext⟩ := link_of_categoryAhead hsome hcolon hlast hahead
        obtain ⟨last, hmem, hin⟩ :=
          link_of_intercalate h htext ((List.suffix_append front text).trans htail)
        exact hlink (fun hnone => nomatch hnone) last hmem hin
  · cases category <;> rfl

-- ============================================================ the line

/-- What follows the content in a line: nothing, or the tags clause. -/
def tagsClause : List (List Char) → List Char
  | [] => []
  | tag :: tags => " tags".toList ++ ':' :: ' ' :: [',', ' '].intercalate (tag :: tags)

/-- Content between its quotes. -/
def inQuotes (content : List Char) : List Char := ' ' :: '"' :: (content ++ ['"'])

variable {content before : List Char} {category : Option (List Char)}

/-- A line that asks for a memory to be created: what its content is written
as, and its clauses behind that. -/
def withClauses (before : List Char) (category : Option (List Char)) (tags : List (List Char)) :
    List Char :=
  "create memory".toList ++ ':' :: (before ++ (tagsClause tags ++ categoryClause category))

/-- The line of a memory to be created. -/
def creation (content : List Char) (category : Option (List Char)) (tags : List (List Char)) :
    List Char :=
  "create memory".toList ++ ':' :: (inQuotes content ++ (tagsClause tags ++ categoryClause category))

/-- A word that ends in another letter is not spelled at the end of a
text. -/
theorem not_spells_of_last {word front : List Char} {c : Char} (hne : word ≠ [])
    (h : word.getLast? ≠ some (fold c)) : ∀ tail, tail <:+ front ++ [c] → ¬Spells tail word := by
  intro tail htail hspells
  rcases List.suffix_concat_iff.mp htail with rfl | ⟨before, rfl, -⟩
  · exact hne (List.eq_nil_of_length_eq_zero hspells.length.symm)
  · rw [← hspells, List.map_append, List.map_singleton, List.getLast?_concat] at h
    exact h rfl

/-- No tail of the words that open the line spells one of these labels. -/
theorem not_spells_of_opening {word : List Char} (h : word ∈ ["category".toList, "tags".toList]) :
    ∀ tail, tail <:+ "create memory".toList → ¬Spells tail word := by
  have hall : ∀ word ∈ ["category".toList, "tags".toList],
      ∀ tail ∈ "create memory".toList.tails, tail.map fold ≠ word := by decide
  exact fun tail htail => hall word h tail ((List.mem_tails tail _).mpr htail)

theorem not_mem_inQuotes {c : Char} (h : c ∉ content) (hc : c ≠ ' ' ∧ c ≠ '"') :
    c ∉ inQuotes content := by
  simp only [inQuotes, List.mem_cons, List.mem_append, List.not_mem_nil, or_false, not_or]
  exact ⟨hc.1, hc.2, h, hc.2⟩

/-- A scan goes on behind the content and a label whose word ends in
another letter. -/
theorem clause?_past_content {α : Type} {read : List Char → Option α} {word label rest : List Char}
    {spaced : Bool} {c : Char} (hbefore : ':' ∉ before) (hword : IsLabel word)
    (hlabel : ':' ∉ label ++ [c]) (hblank : isBlank c = false)
    (hlast : word.getLast? ≠ some (fold c)) :
    clause? word spaced read (before ++ label ++ [c] ++ ':' :: rest)
      = clause? word spaced read rest := by
  refine clause?_past hword ?_ (fun d hd => ?_) (not_spells_of_last hword.1 hlast)
  · rw [List.append_assoc, List.mem_append, not_or]
    exact ⟨hbefore, hlabel⟩
  · rw [List.getLast?_concat] at hd
    cases hd
    exact hblank

/-- The category of a line that ends with its clause, if no label stands
before it. -/
theorem category?_append (hbefore : ':' ∉ before)
    (hcategory : ∀ word ∈ category, word ≠ [] ∧ ∀ c ∈ word, isWordChar c = true) :
    category? (before ++ categoryClause category) = category := by
  cases category with
  | none =>
      show category? (before ++ []) = none
      rw [List.append_nil]
      exact clause?_eq_none hbefore
  | some category =>
      obtain ⟨hne, hword⟩ := hcategory category rfl
      have hfront : ':' ∉ before ++ [' '] := by
        rw [List.mem_append, not_or]
        exact ⟨hbefore, by decide⟩
      have hline : before ++ categoryClause (some category)
          = before ++ [' '] ++ "category".toList ++ ':' :: ' ' :: category := by
        rw [List.append_assoc, List.append_assoc]
        rfl
      rw [hline]
      exact clause?_here isLabel_category hfront rfl (word_behind_blank hne hword)

theorem category?_withClauses (hbefore : ':' ∉ before) (htags : ∀ tag ∈ tags, IsTag tag)
    (hcategory : ∀ word ∈ category, word ≠ [] ∧ ∀ c ∈ word, isWordChar c = true) :
    category? (withClauses before category tags) = category := by
  have hpast : category? (withClauses before category tags)
      = category? (before ++ (tagsClause tags ++ categoryClause category)) :=
    clause?_past isLabel_category (by decide) (forall_mem_of_option (by decide))
      (not_spells_of_opening (by decide))
  rw [hpast]
  cases tags with
  | nil => exact category?_append hbefore hcategory
  | cons tag tags =>
      have hline : before ++ (tagsClause (tag :: tags) ++ categoryClause category)
          = before ++ " tag".toList ++ ['s']
            ++ ':' :: (' ' :: [',', ' '].intercalate (tag :: tags) ++ categoryClause category) := by
        show before ++ ((" tags".toList ++ ':' :: ' ' :: _) ++ _) = _
        simp
      have hnext : category? (before ++ (tagsClause (tag :: tags) ++ categoryClause category))
          = category? (' ' :: [',', ' '].intercalate (tag :: tags) ++ categoryClause category) := by
        rw [hline]
        exact clause?_past_content hbefore isLabel_category (by decide) (by decide) (by decide)
      rw [hnext]
      refine category?_append ?_ hcategory
      rw [List.mem_cons, not_or]
      exact ⟨by decide, fun hmem => (chars_intercalate htags ':' hmem).1 rfl⟩

theorem isLabel_tags : IsLabel "tags".toList := ⟨by decide, forall_mem_of_all (by decide)⟩

/-- The reading of a tags clause in a line. -/
def tagsValue? (cs : List Char) : Option (List Char) :=
  clause? "tags".toList false (fun value => memoryTagsValue (skipBlank value)) cs

theorem tagsValue?_past_opening (rest : List Char) :
    tagsValue? ("create memory".toList ++ ':' :: rest) = tagsValue? rest :=
  clause?_past isLabel_tags (by decide) (forall_mem_of_option (by decide))
    (not_spells_of_opening (by decide))

/-- No tags are found in a line without tags. -/
theorem tagsValue?_withClauses_nil (hbefore : ':' ∉ before)
    (hcategory : ∀ word ∈ category, ∀ c ∈ word, isWordChar c = true) :
    tagsValue? (withClauses before category []) = none := by
  show tagsValue? ("create memory".toList ++ ':' :: (before ++ categoryClause category)) = none
  rw [tagsValue?_past_opening]
  cases category with
  | none =>
      show tagsValue? (before ++ []) = none
      rw [List.append_nil]
      exact clause?_eq_none hbefore
  | some category =>
      have hline : before ++ categoryClause (some category)
          = before ++ " categor".toList ++ ['y'] ++ ':' :: ' ' :: category := by
        show before ++ (" category".toList ++ _) = _
        simp
      have hpast : tagsValue? (before ++ " categor".toList ++ ['y'] ++ ':' :: ' ' :: category)
          = tagsValue? (' ' :: category) :=
        clause?_past_content hbefore isLabel_tags (by decide) (by decide) (by decide)
      rw [hline, hpast]
      refine clause?_eq_none ?_
      rw [List.mem_cons, not_or]
      exact ⟨by decide, not_mem_of_isWordChar (hcategory category rfl) (by decide)⟩

/-- The tags of a line are found behind the content. -/
theorem tagsValue?_withClauses (hbefore : ':' ∉ before) (hne : tags ≠ [])
    (htags : ∀ tag ∈ tags, IsTag tag)
    (hlink : category ≠ none → ∀ last ∈ tags.getLast?, ¬"in".toList <:+ last.map fold) :
    tagsValue? (withClauses before category tags) = some ([',', ' '].intercalate tags) := by
  obtain ⟨tag, more, rfl⟩ := List.exists_cons_of_ne_nil hne
  have hfront : ':' ∉ before ++ [' '] := by
    rw [List.mem_append, not_or]
    exact ⟨hbefore, by decide⟩
  have hline : before ++ (tagsClause (tag :: more) ++ categoryClause category)
      = before ++ [' '] ++ "tags".toList
        ++ ':' :: ' ' :: ([',', ' '].intercalate (tag :: more) ++ categoryClause category) := by
    rw [List.append_assoc, List.append_assoc]
    rfl
  show tagsValue? ("create memory".toList ++ ':' :: (before ++ (_ ++ _))) = _
  rw [tagsValue?_past_opening, hline]
  exact clause?_here isLabel_tags hfront rfl (memoryTagsValue_line hne htags hlink)

/-- The hashtags of a line count only if it has no tags clause. -/
theorem memoryTags_eq (line : List Char) :
    memoryTags line = match tagList ((tagsValue? line).getD []) with
      | [] => hashtags line
      | tags => tags := by
  unfold memoryTags tagsValue? clause?
  simp only [← afterWord_concat_colon]
  rfl

theorem memoryTags_withClauses (hbefore : ':' ∉ before) (hmark : '#' ∉ before)
    (htags : ∀ tag ∈ tags, IsTag tag) (hcategory : ∀ word ∈ category, ∀ c ∈ word, isWordChar c = true)
    (hlink : category ≠ none → ∀ last ∈ tags.getLast?, ¬"in".toList <:+ last.map fold) :
    memoryTags (withClauses before category tags) = tags := by
  rw [memoryTags_eq]
  cases tags with
  | nil =>
      rw [tagsValue?_withClauses_nil hbefore hcategory]
      refine hashtags_eq_nil ?_
      show '#' ∉ "create memory".toList ++ ':' :: (before ++ categoryClause category)
      rw [List.mem_append, List.mem_cons, List.mem_append, not_or, not_or, not_or]
      refine ⟨by decide, by decide, hmark, ?_⟩
      cases category with
      | none => exact List.not_mem_nil
      | some category =>
          have hword : '#' ∉ category := not_mem_of_isWordChar (hcategory category rfl) (by decide)
          show '#' ∉ " category: ".toList ++ category
          rw [List.mem_append, not_or]
          exact ⟨by decide, hword⟩
  | cons tag tags =>
      rw [tagsValue?_withClauses hbefore (List.cons_ne_nil _ _) htags hlink,
        Option.getD_some, tagList_intercalate (List.cons_ne_nil _ _) htags]

/-- The category behind quoted content. -/
theorem category?_creation (hcontent : ':' ∉ content) (htags : ∀ tag ∈ tags, IsTag tag)
    (hcategory : ∀ word ∈ category, word ≠ [] ∧ ∀ c ∈ word, isWordChar c = true) :
    category? (creation content category tags) = category :=
  category?_withClauses (not_mem_inQuotes hcontent (by decide)) htags hcategory

theorem memoryTags_creation (hcontent : ':' ∉ content) (hmark : '#' ∉ content)
    (htags : ∀ tag ∈ tags, IsTag tag) (hcategory : ∀ word ∈ category, ∀ c ∈ word, isWordChar c = true)
    (hlink : category ≠ none → ∀ last ∈ tags.getLast?, ¬"in".toList <:+ last.map fold) :
    memoryTags (creation content category tags) = tags :=
  memoryTags_withClauses (not_mem_inQuotes hcontent (by decide))
    (not_mem_inQuotes hmark (by decide)) htags hcategory hlink

theorem memoryContent_creation (hne : content ≠ []) (hcontent : ∀ c ∈ content, isQuote c = false) :
    memoryContent (creation content category tags) = content := by
  have hline : creation content category tags = "create memory: ".toList
      ++ '"' :: (content ++ '"' :: (tagsClause tags ++ categoryClause category)) := by
    show "create memory".toList ++ ':' :: (' ' :: '"' :: (content ++ ['"']) ++ _) = _
    simp
  have hquoted : quoted? (creation content category tags) = some content := by
    rw [hline]
    exact quoted?_append (forall_mem_of_all (by decide)) rfl hne hcontent rfl
  unfold memoryContent
  rw [hquoted]

end Daybook.Clause

namespace Daybook.Instruction

open Text

-- ======================================================== round trip

/-- A line that asks for a memory to be created: the content between
quotes, the tags joined by commas, the category. -/
def creationLine (content : String) (category : Option String) (tags : List String) : String :=
  "create memory: \"" ++ content ++ "\""
    ++ (if tags = [] then "" else " tags: " ++ ", ".intercalate tags)
    ++ (category.elim "" fun word => " category: " ++ word)

/-- What can be written out: content without quotes, colons and number
signs, trimmed tags without commas, quotes, colons and line breaks, and a
category that is one word.  Before a category the last tag does not end in
`in`, in any case. -/
structure Writable (content : String) (category : Option String) (tags : List String) : Prop where
  content_plain : content ≠ "" ∧ ∀ c ∈ content.toList, c ∉ ['"', '\'', '#', ':']
  tags_plain : ∀ tag ∈ tags, tag ≠ "" ∧ trimmed tag = tag ∧
    ∀ c ∈ tag.toList, c ∉ [',', '"', '\'', ':', '\n']
  category_word : ∀ word ∈ category, word ≠ "" ∧ ∀ c ∈ word.toList, isWordChar c = true
  last_plain : category ≠ none → ∀ last ∈ tags.getLast?, ¬"in".toList <:+ last.toList.map fold

variable {content : String} {category : Option String} {tags : List String}

/-- The tags as they are joined in a line. -/
theorem toList_tagsClause (tags : List String) :
    (if tags = [] then "" else " tags: " ++ ", ".intercalate tags).toList
      = Clause.tagsClause (tags.map String.toList) := by
  cases tags with
  | nil => rfl
  | cons tag tags =>
      rw [if_neg (List.cons_ne_nil tag tags), String.toList_append, String.toList_intercalate]
      rfl

theorem strings_map_toList (tags : List String) : strings (tags.map String.toList) = tags := by
  simp [strings]

theorem toList_creationLine : (creationLine content category tags).toList
    = Clause.creation content.toList (category.map String.toList) (tags.map String.toList) := by
  have hcategory : (category.elim "" fun word => " category: " ++ word).toList
      = Clause.categoryClause (category.map String.toList) := by
    cases category with
    | none => rfl
    | some word =>
        show (" category: " ++ word).toList = _
        rw [String.toList_append]
        rfl
  have hopening : "create memory: \"".toList = "create memory".toList ++ [':', ' ', '"'] := by decide
  have hquote : "\"".toList = ['"'] := by decide
  unfold creationLine Clause.creation Clause.inQuotes
  simp only [String.toList_append, toList_tagsClause, hcategory, hopening, hquote, List.append_assoc,
    List.cons_append, List.nil_append]

theorem Writable.isTag (h : Writable content category tags) :
    ∀ tag ∈ tags.map String.toList, Clause.IsTag tag := by
  intro text htext
  obtain ⟨tag, hmem, rfl⟩ := List.mem_map.mp htext
  obtain ⟨hne, htrim, hchars⟩ := h.tags_plain tag hmem
  refine ⟨fun hnil => hne (String.toList_eq_nil_iff.mp hnil), ?_, fun c hc => ?_⟩
  · rw [← toList_trimmed, htrim]
  · have hplain := hchars c hc
    simp only [List.mem_cons, List.not_mem_nil, or_false, not_or] at hplain
    refine ⟨hplain.1, hplain.2.2.2.1, hplain.2.2.2.2, ?_⟩
    simp only [Clause.isQuote, Bool.or_eq_false_iff, beq_eq_false_iff_ne]
    exact ⟨hplain.2.1, hplain.2.2.1⟩

/-- A memory to be created is read back from its line. -/
theorem read_creationLine (h : Writable content category tags) :
    read (creationLine content category tags) = .createMemory content category tags := by
  have hne : content.toList ≠ [] := fun hnil => h.content_plain.1 (String.toList_eq_nil_iff.mp hnil)
  have hplain : ∀ c ∈ content.toList, c ≠ '"' ∧ c ≠ '\'' ∧ c ≠ '#' ∧ c ≠ ':' := by
    intro c hc
    have hnot := h.content_plain.2 c hc
    simpa only [List.mem_cons, List.not_mem_nil, or_false, not_or] using hnot
  have hquotes : ∀ c ∈ content.toList, Clause.isQuote c = false := by
    intro c hc
    simp only [Clause.isQuote, Bool.or_eq_false_iff, beq_eq_false_iff_ne]
    exact ⟨(hplain c hc).1, (hplain c hc).2.1⟩
  have hmark : '#' ∉ content.toList := fun hc => (hplain '#' hc).2.2.1 rfl
  have hcolon : ':' ∉ content.toList := fun hc => (hplain ':' hc).2.2.2 rfl
  have hword : ∀ word ∈ category.map String.toList, word ≠ [] ∧ ∀ c ∈ word, isWordChar c = true := by
    intro text htext
    obtain ⟨word, hmem, rfl⟩ := Option.map_eq_some_iff.mp htext
    obtain ⟨hsome, hchars⟩ := h.category_word word hmem
    exact ⟨fun hnil => hsome (String.toList_eq_nil_iff.mp hnil), hchars⟩
  have hlink : category.map String.toList ≠ none →
      ∀ last ∈ (tags.map String.toList).getLast?, ¬"in".toList <:+ last.map fold := by
    intro hcategory text htext
    rw [List.getLast?_map] at htext
    obtain ⟨last, hmem, rfl⟩ := Option.map_eq_some_iff.mp htext
    exact h.last_plain (fun hnone => hcategory (by rw [hnone]; rfl)) last hmem
  have hopening : read (creationLine content category tags)
      = readCreateMemory (Clause.creation content.toList (category.map String.toList)
          (tags.map String.toList)) := by
    unfold read
    rw [toList_creationLine]
    exact readChars_createMemory _
  rw [hopening]
  unfold readCreateMemory
  rw [Clause.memoryContent_creation hne hquotes, Clause.category?_creation hcolon h.isTag hword,
    Clause.memoryTags_creation hcolon hmark h.isTag (fun word hmem => (hword word hmem).2) hlink]
  unfold strings
  rw [String.ofList_toList, Option.map_map, List.map_map]
  simp only [Function.comp_def, String.ofList_toList, Option.map_id', List.map_id']

theorem writable_trip : Writable "Trip planning" (some "ideas") ["travel plans", "summer"] where
  content_plain := ⟨by decide, forall_mem_of_all (by decide)⟩
  tags_plain := fun tag htag => by
    rcases List.mem_pair.mp htag with rfl | rfl
    · exact ⟨by decide, by decide, forall_mem_of_all (by decide)⟩
    · exact ⟨by decide, by decide, forall_mem_of_all (by decide)⟩
  category_word := fun word hword => by
    cases hword
    exact ⟨by decide, forall_mem_of_all (by decide)⟩
  last_plain := fun _ => by decide

theorem read_creationLine_trip :
    Writable "Trip planning" (some "ideas") ["travel plans", "summer"]
      ∧ read (creationLine "Trip planning" (some "ideas") ["travel plans", "summer"])
        = .createMemory "Trip planning" (some "ideas") ["travel plans", "summer"] :=
  ⟨writable_trip, read_creationLine writable_trip⟩

end Daybook.Instruction
