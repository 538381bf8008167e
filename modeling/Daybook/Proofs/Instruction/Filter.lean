/-
A deletion by tags and category, written out and read again.

The tags clause has no mark of its own at its end: it ends where a category
clause begins, and the link `in` belongs to that clause.  No blank is asked
before the link, so a last tag that ends in its letters, in any case, loses
them, and one that is nothing else is lost (`filterTags_filterLine`).  All
other tags, the category, and that nothing else is read from the line, are as
they were written (`read_deletionLine`).
-/
import Daybook.Proofs.Instruction.Creation

namespace Daybook.Clause

open Text

variable {tags : List (List Char)} {category front behind : List Char}

/-- The line of a deletion by tags and category. -/
def filterLine (tags : List (List Char)) (category : List Char) : List Char :=
  "delete memories tags".toList ++ ':' :: ' ' ::
    ([',', ' '].intercalate tags ++ categoryClause (some category))

-- ========================================================== the tags clause

/-- The tags of a filter are looked for behind three labels. -/
theorem filterTagsHere_eq (cs : List Char) : filterTagsHere cs =
    filterTagsWords.findSome? fun word => (afterLabel word.toList true cs).map fun value =>
      takeUntil filterTagsEnd (dropQuote (skipBlank value)) := rfl

/-- The words before a tags filter: of a deletion, and of a query. -/
def filterOpenings : List (List Char) := ["delete memories ".toList, "show ".toList]

/-- The first tags filter of the line is the one behind its opening words. -/
theorem seek_filterTagsHere {opening : List Char} (hopening : opening ∈ filterOpenings) (rest : List Char) :
    seek filterTagsHere (opening ++ "tags".toList ++ ':' :: rest)
      = some (takeUntil filterTagsEnd (dropQuote (skipBlank rest))) := by
  rw [List.append_assoc, seek_append fun tail htail hsome => ?_]
  · exact seek_of_eq_some rfl
  · rw [filterTagsHere_eq, List.findSome?_eq_none_iff]
    intro word hword
    rw [Option.map_eq_none_iff, ← List.append_assoc, Option.eq_none_iff_forall_ne_some]
    intro r hread
    -- no longer end of the opening words spells one of the labels
    have hall : ∀ opening ∈ filterOpenings, ∀ word ∈ filterTagsWords, ∀ tail ∈ opening.tails, tail ≠ [] →
        (tail ++ "tags".toList).map fold ≠ word.toList ∧ ':' ∉ tail ++ "tags".toList := by decide
    obtain ⟨hother, hcolon⟩ := hall opening hopening word hword tail ((List.mem_tails tail _).mpr htail) hsome
    have hlabel : IsLabel word.toList := by
      simp only [filterTagsWords, List.mem_cons, List.not_mem_nil, or_false] at hword
      rcases hword with rfl | rfl | rfl
      · exact ⟨by decide, forall_mem_of_all (by decide)⟩
      · exact ⟨by decide, forall_mem_of_all (by decide)⟩
      · exact ⟨by decide, forall_mem_of_all (by decide)⟩
    refine hother (spells_of_afterLabel hlabel hcolon (fun c hc => ?_) hread)
    rw [List.getLast?_append_of_ne_nil _ (by decide)] at hc
    cases hc
    decide

/-- The value of the tags filter is the first part of the line of tags. -/
theorem filterTags_filterLine {hashtagsCount : Bool} (htags : ∀ tag ∈ tags, IsTag tag)
    (hperiod : ∀ tag ∈ tags, '.' ∉ tag) (hne : tags ≠ [])
    (hline : [',', ' '].intercalate tags = front ++ behind) (hparted : Parted "in" front behind) :
    filterTags hashtagsCount (filterLine tags category) = tagList front := by
  have hchars : ∀ c ∈ front ++ behind, isQuote c = false ∧ c ≠ '.' ∧ c ≠ '\n' := by
    intro c hc
    rw [← hline] at hc
    have hplain := chars_intercalate htags c hc
    refine ⟨hplain.2.2, ?_, hplain.2.1⟩
    rintro rfl
    rcases mem_intercalate hc with hcomma | hblank | ⟨tag, hmem, hc⟩
    · cases hcomma
    · cases hblank
    · exact hperiod tag hmem hc
  have hstart : dropQuote (skipBlank (' ' :: (front ++ behind ++ categoryClause (some category))))
      = front ++ behind ++ categoryClause (some category) := by
    obtain ⟨hskip, hquote⟩ := skipBlank_intercalate hne htags (categoryClause (some category))
    rw [← hline, hskip, hquote]
  have hvalue : takeUntil filterTagsEnd (front ++ (behind ++ categoryClause (some category))) = front := by
    apply takeUntil_append
    · intro tail htail hsome
      have hahead : categoryAhead true (tail ++ (behind ++ categoryClause (some category))) = false := by
        show (afterLinked "in" "category".toList true
          (tail ++ (behind ++ ' ' :: ("category".toList ++ ':' :: ' ' :: category)))).isSome = false
        rw [hparted.afterLinked_eq_none isLabel_in isLabel_category rfl htail hsome]
        rfl
      obtain ⟨c, more, rfl⟩ := List.exists_cons_of_ne_nil hsome
      have hc := hchars c (List.mem_append_left _ (htail.mem List.mem_cons_self))
      rw [List.cons_append] at hahead ⊢
      simp [filterTagsEnd, hahead, hc]
    · have hahead : categoryAhead true (behind ++ categoryClause (some category)) = true := by
        show (afterLinked "in" "category".toList true
          (behind ++ ' ' :: ("category".toList ++ ':' :: ' ' :: category))).isSome = true
        rw [hparted.afterLinked isLabel_in isLabel_category rfl]
        rfl
      obtain ⟨c, more, hsame⟩ : ∃ c more, behind ++ categoryClause (some category) = c :: more :=
        List.exists_cons_of_ne_nil (List.append_ne_nil_of_right_ne_nil _ (List.cons_ne_nil _ _))
      rw [hsame] at hahead ⊢
      simp [filterTagsEnd, hahead]
  have hopening : "delete memories tags".toList = "delete memories ".toList ++ "tags".toList := by decide
  unfold filterTags filterLine
  rw [hopening, seek_filterTagsHere (by decide), hline, hstart, List.append_assoc, hvalue]

/-- A comma at the end of a list adds no tag. -/
theorem tagList_concat_comma (cs : List Char) : tagList (cs ++ [',']) = tagList cs := by
  have hcells : cells (cs ++ [',']) = cells cs ++ [[]] := by
    unfold cells
    rw [cut_append_separator, List.map_append]
    rfl
  unfold tagList
  rw [hcells, List.map_append, List.filter_append]
  exact List.append_nil _

/-- A line of tags that ends in the link is left without it: the last tag
loses these letters, and is lost if it has no others. -/
theorem exists_parted_link {before : List (List Char)} {letters link : List Char}
    (hbefore : ∀ tag ∈ before, IsTag tag) (hletters : letters ≠ [] → IsTag letters)
    (hlink : Spells link "in".toList) :
    ∃ front behind, [',', ' '].intercalate (before ++ [letters ++ link]) = front ++ behind
      ∧ Parted "in" front behind
      ∧ tagList front = before ++ if letters = [] then [] else [letters] := by
  have hspelled : IsLink "in" link := ⟨[], link, rfl, fun c hc => (nomatch hc), hlink⟩
  by_cases hnil : letters = []
  · subst hnil
    rw [if_pos rfl, List.append_nil, List.nil_append]
    by_cases hnone : before = []
    · subst hnone
      exact ⟨[], link, List.intercalate_singleton, parted_of_isLink isLabel_in List.not_mem_nil
        (fun c hc => nomatch hc) hspelled, rfl⟩
    · refine ⟨[',', ' '].intercalate before ++ [','], ' ' :: link, ?_, ?_, ?_⟩
      · rw [intercalate_concat_of_ne_nil hnone]
        simp
      · refine parted_of_isLink isLabel_in ?_ (fun c hc => ?_) ⟨[' '], link, rfl, ?_, hlink⟩
        · rw [List.mem_append, not_or]
          exact ⟨fun hmem => (chars_intercalate hbefore ':' hmem).1 rfl, by decide⟩
        · rw [List.getLast?_concat] at hc
          cases hc
          decide
        · exact forall_mem_of_all (by decide)
      · rw [tagList_concat_comma, tagList_intercalate hnone hbefore]
  · have htags : ∀ tag ∈ before ++ [letters], IsTag tag := by
      intro tag hmem
      rcases List.mem_append.mp hmem with hmem | hmem
      · exact hbefore tag hmem
      · rw [List.mem_singleton.mp hmem]
        exact hletters hnil
    have hsome : before ++ [letters] ≠ [] := List.append_ne_nil_of_right_ne_nil _ (List.cons_ne_nil _ _)
    refine ⟨[',', ' '].intercalate (before ++ [letters]), link, ?_, ?_, ?_⟩
    · by_cases hnone : before = []
      · subst hnone
        simp
      · rw [intercalate_concat_of_ne_nil hnone, intercalate_concat_of_ne_nil hnone]
        simp
    · exact parted_of_isLink isLabel_in (fun hmem => (chars_intercalate htags ':' hmem).1 rfl)
        (last_intercalate htags) hspelled
    · rw [tagList_intercalate hsome htags, if_neg hnil]

-- ======================================================== the other clauses

/-- No id is named in the line. -/
theorem id?_filterLine (htags : ∀ tag ∈ tags, '#' ∉ tag) (hcategory : '#' ∉ category) :
    id? (filterLine tags category) = none := by
  apply id?_eq_none
  have hline : '#' ∉ [',', ' '].intercalate tags := by
    intro hmem
    rcases mem_intercalate hmem with hcomma | hblank | ⟨tag, htag, hmem⟩
    · cases hcomma
    · cases hblank
    · exact htags tag htag hmem
  unfold filterLine categoryClause
  simp only [List.mem_append, List.mem_cons, not_or]
  exact ⟨by decide, by decide, by decide, hline, by decide, by decide, by decide, hcategory⟩

theorem category?_filterLine (htags : ∀ tag ∈ tags, IsTag tag) (hcategory : IsWord category) :
    category? (filterLine tags category) = some category := by
  have hpast : category? (filterLine tags category)
      = category? (' ' :: [',', ' '].intercalate tags ++ categoryClause (some category)) := by
    refine clause?_past isLabel_category (by decide) (forall_mem_of_option (by decide)) ?_
    have hall : ∀ tail ∈ "delete memories tags".toList.tails, tail.map fold ≠ "category".toList := by
      decide
    exact fun tail htail => hall tail ((List.mem_tails tail _).mpr htail)
  rw [hpast]
  apply category?_append
  · rw [List.mem_cons, not_or]
    exact ⟨by decide, fun hmem => (chars_intercalate htags ':' hmem).1 rfl⟩
  · rintro word ⟨⟩
    exact hcategory

/-- Lowering makes no blank. -/
theorem blank_not_mem_lowered {cs : List Char} (h : ' ' ∉ cs) : ' ' ∉ lowered cs := by
  unfold lowered
  rw [List.mem_flatMap]
  rintro ⟨c, hc, hmem⟩
  unfold lower at hmem
  split at hmem
  · simp at hmem
  split at hmem
  · simp at hmem
  · rw [List.mem_singleton] at hmem
    rcases toLower_cases c with hsame | ⟨hrange, hlower⟩
    · exact h (hmem.trans hsame ▸ hc)
    · rw [← hmem] at hlower
      have hpoint : ' '.toNat = 32 := rfl
      omega

/-- The words of a deletion of everything stand in a text with a blank only
around that blank or behind it. -/
theorem not_everything_past {front rest : List Char} (hfront : ' ' ∉ front)
    (hnot : ¬("delete".toList <:+ front ∧ "all".toList <+: rest))
    (hrest : ¬"delete all".toList <:+: rest) : ¬"delete all".toList <:+: front ++ ' ' :: rest := by
  show ¬"delete".toList ++ ' ' :: "all".toList <:+: front ++ ' ' :: rest
  rw [infix_append_separator (by decide) hfront]
  exact not_or.mpr ⟨hnot, hrest⟩

/-- No two tags of a line are the words of a deletion of everything: a comma
stands between them. -/
theorem not_everything_tags {rest : List Char} (htags : ∀ tag ∈ tags, ' ' ∉ tag)
    (hnext : ¬"all".toList <+: rest) (hrest : ¬"delete all".toList <:+: rest) :
    ¬"delete all".toList <:+: lowered ([',', ' '].intercalate tags) ++ ' ' :: rest := by
  induction tags with
  | nil => exact not_everything_past List.not_mem_nil (fun h => hnext h.2) hrest
  | cons tag tags ih =>
      have htag : ' ' ∉ lowered tag := blank_not_mem_lowered (htags tag List.mem_cons_self)
      cases tags with
      | nil =>
          rw [List.intercalate_singleton]
          exact not_everything_past htag (fun h => hnext h.2) hrest
      | cons second tags =>
          have hmore := ih fun tag hmem => htags tag (List.mem_cons_of_mem _ hmem)
          have hline : lowered ([',', ' '].intercalate (tag :: second :: tags)) ++ ' ' :: rest
              = (lowered tag ++ [',']) ++ ' ' ::
                (lowered ([',', ' '].intercalate (second :: tags)) ++ ' ' :: rest) := by
            rw [List.intercalate_cons_cons, lowered_append, lowered_append]
            simp only [List.append_assoc]
            rfl
          rw [hline]
          refine not_everything_past ?_ (fun h => ?_) hmore
          · rw [List.mem_append, not_or]
            exact ⟨htag, by decide⟩
          · obtain ⟨begin, hbegin⟩ := h.1
            have hlast := congrArg List.getLast? hbegin
            rw [List.getLast?_concat, List.getLast?_append_of_ne_nil _ (by decide)] at hlast
            exact absurd hlast (by decide)

/-- The line asks for no deletion of everything. -/
theorem not_everything_filterLine (htags : ∀ tag ∈ tags, ' ' ∉ tag) (hcategory : ' ' ∉ category) :
    contains "delete all" (lowered (filterLine tags category)) = false := by
  have hline : lowered (filterLine tags category) = "delete".toList ++ ' ' :: ("memories".toList ++
      ' ' :: ("tags:".toList ++ ' ' :: (lowered ([',', ' '].intercalate tags) ++ ' ' ::
        ("category:".toList ++ ' ' :: lowered category)))) := by
    have hopening : lowered ("delete memories tags".toList ++ [':', ' '])
        = "delete".toList ++ ' ' :: ("memories".toList ++ ' ' :: ("tags:".toList ++ [' '])) := by decide
    have hlabel : lowered (" category".toList ++ [':', ' ']) = ' ' :: ("category:".toList ++ [' ']) := by
      decide
    have hparts : filterLine tags category = ("delete memories tags".toList ++ [':', ' '])
        ++ ([',', ' '].intercalate tags ++ ((" category".toList ++ [':', ' ']) ++ category)) := by
      unfold filterLine categoryClause
      simp only [List.append_assoc, List.cons_append, List.nil_append]
    rw [hparts, lowered_append _ (_ ++ _), hopening, lowered_append, lowered_append _ category, hlabel]
    simp only [List.append_assoc, List.cons_append, List.nil_append]
  have hlast : ¬"delete all".toList <:+: lowered category := fun h =>
    blank_not_mem_lowered hcategory (h.mem (by decide))
  have hcategoryClause : ¬"delete all".toList <:+: "category:".toList ++ ' ' :: lowered category :=
    not_everything_past (by decide) (fun h => absurd h.1 (by decide)) hlast
  have htagsClause : ¬"delete all".toList <:+: lowered ([',', ' '].intercalate tags) ++ ' ' ::
      ("category:".toList ++ ' ' :: lowered category) :=
    not_everything_tags htags (by simp) hcategoryClause
  rw [Bool.eq_false_iff, Ne, contains_eq_true_iff, hline]
  apply not_everything_past (by decide) (by simp)
  apply not_everything_past (by decide) (fun h => absurd h.1 (by decide))
  exact not_everything_past (by decide) (fun h => absurd h.1 (by decide)) htagsClause

end Daybook.Clause

namespace Daybook.Instruction

open Text

/-- A line that asks to delete the memories with one of the tags or the
category. -/
def deletionLine (tags : List String) (category : String) : String :=
  "delete memories tags: " ++ ", ".intercalate tags ++ " category: " ++ category

variable {tags : List String} {category : String}

theorem toList_deletionLine : (deletionLine tags category).toList
    = Clause.filterLine (tags.map String.toList) category.toList := by
  have hopening : "delete memories tags: ".toList = "delete memories tags".toList ++ [':', ' '] := by
    decide
  have hlabel : " category: ".toList = " category".toList ++ [':', ' '] := by decide
  have hcomma : ", ".toList = [',', ' '] := by decide
  unfold deletionLine Clause.filterLine Clause.categoryClause
  simp only [String.toList_append, String.toList_intercalate, hopening, hlabel, hcomma,
    List.append_assoc, List.cons_append, List.nil_append]

/-- The deletion that is read from the line: all but its target. -/
theorem read_deletionLine_of_parted {front behind : List Char} (hne : tags ≠ [])
    (htags : ∀ tag ∈ tags, Clause.IsWord tag.toList) (hcategory : Clause.IsWord category.toList)
    (hline : [',', ' '].intercalate (tags.map String.toList) = front ++ behind)
    (hparted : Clause.Parted "in" front behind) :
    ∃ target, read (deletionLine tags category)
      = .delete ⟨target, none, false, strings (Clause.tagList front), some category⟩ := by
  have hwords : ∀ tag ∈ tags.map String.toList, Clause.IsWord tag := by
    intro text htext
    obtain ⟨tag, hmem, rfl⟩ := List.mem_map.mp htext
    exact htags tag hmem
  have hnot : ∀ tag ∈ tags.map String.toList, ∀ {d : Char}, isWordChar d = false → d ∉ tag :=
    fun tag hmem d hd => Clause.not_mem_of_isWordChar (hwords tag hmem).2 hd
  have hisTag : ∀ tag ∈ tags.map String.toList, Clause.IsTag tag :=
    fun tag hmem => (hwords tag hmem).isTag
  have hopening : read (deletionLine tags category)
      = .delete (readDeletion (Clause.filterLine (tags.map String.toList) category.toList)) := by
    have hwords : "delete memories tags".toList = "delete memories".toList ++ " tags".toList := by decide
    unfold read
    rw [toList_deletionLine]
    unfold Clause.filterLine
    rw [hwords, List.append_assoc, readChars_deleteMemories]
  have hsome : tags.map String.toList ≠ [] := by simpa using hne
  have hdeletion : readDeletion (Clause.filterLine (tags.map String.toList) category.toList)
      = ⟨(target? (lowered (Clause.filterLine (tags.map String.toList) category.toList))).getD .memory,
          none, false, strings (Clause.tagList front), some category⟩ := by
    unfold readDeletion
    rw [Clause.id?_filterLine (fun tag hmem => hnot tag hmem (by decide))
        (Clause.not_mem_of_isWordChar hcategory.2 (by decide)),
      Clause.category?_filterLine hisTag hcategory]
    dsimp only
    rw [Clause.filterTags_filterLine hisTag (fun tag hmem => hnot tag hmem (by decide)) hsome hline hparted,
      Clause.not_everything_filterLine (fun tag hmem => hnot tag hmem (by decide))
        (Clause.not_mem_of_isWordChar hcategory.2 (by decide))]
    simp
  exact ⟨_, hopening.trans (congrArg Instruction.delete hdeletion)⟩

/-- A text that ends in a word, in any case, is that word's letters behind
others. -/
theorem exists_letters_of_suffix {word text : List Char} (h : word <:+ text.map fold) :
    ∃ letters link, text = letters ++ link ∧ Spells link word := by
  obtain ⟨begin, hbegin⟩ := h
  obtain ⟨letters, link, rfl, -, hlink⟩ := List.map_eq_append_iff.mp hbegin.symm
  exact ⟨letters, link, rfl, hlink⟩

/-- Tags of which the last one ends in other letters are all read. -/
theorem read_deletionLine_of_not_link (hne : tags ≠ [])
    (htags : ∀ tag ∈ tags, Clause.IsWord tag.toList) (hcategory : Clause.IsWord category.toList)
    (hlink : ∀ last ∈ tags.getLast?, ¬"in".toList <:+ last.toList.map fold) :
    ∃ target, read (deletionLine tags category)
      = .delete ⟨target, none, false, tags, some category⟩ := by
  have hisTag : ∀ tag ∈ tags.map String.toList, Clause.IsTag tag := by
    intro text htext
    obtain ⟨tag, hmem, rfl⟩ := List.mem_map.mp htext
    exact (htags tag hmem).isTag
  have hnot : ¬"in".toList <:+ ([',', ' '].intercalate (tags.map String.toList)).map fold := by
    intro hend
    obtain ⟨front, link, hline, hspells⟩ := exists_letters_of_suffix hend
    obtain ⟨text, htext, hin⟩ :=
      Clause.link_of_intercalate hisTag hspells (hline ▸ List.suffix_append front link)
    rw [List.getLast?_map] at htext
    obtain ⟨last, hmem, rfl⟩ := Option.map_eq_some_iff.mp htext
    exact hlink last hmem hin
  have hparted : Clause.Parted "in" ([',', ' '].intercalate (tags.map String.toList)) [] :=
    Clause.parted_of_not_suffix (fun hmem => (Clause.chars_intercalate hisTag ':' hmem).1 rfl)
      (Clause.last_intercalate hisTag) hnot
  obtain ⟨target, hread⟩ :=
    read_deletionLine_of_parted hne htags hcategory (List.append_nil _).symm hparted
  refine ⟨target, ?_⟩
  rw [hread, Clause.tagList_intercalate (by simpa using hne) hisTag]
  simp [strings]

/-- A last tag that ends in the link is read without it. -/
theorem read_deletionLine_of_link {before : List String} {letters link : String}
    (htags : ∀ tag ∈ before ++ [letters ++ link], Clause.IsWord tag.toList)
    (hcategory : Clause.IsWord category.toList) (hlink : Spells link.toList "in".toList) :
    ∃ target, read (deletionLine (before ++ [letters ++ link]) category) = .delete ⟨target, none, false,
      before ++ (if letters = "" then [] else [letters]), some category⟩ := by
  have hbefore : ∀ tag ∈ before.map String.toList, Clause.IsTag tag := by
    intro text htext
    obtain ⟨tag, hmem, rfl⟩ := List.mem_map.mp htext
    have hword := htags tag (List.mem_append_left _ hmem)
    exact hword.isTag
  have hletters : letters.toList ≠ [] → Clause.IsTag letters.toList := by
    intro hne
    have hword := htags _ (List.mem_append_right _ List.mem_cons_self)
    rw [String.toList_append] at hword
    exact Clause.IsWord.isTag ⟨hne, fun c hc => hword.2 c (List.mem_append_left _ hc)⟩
  obtain ⟨front, behind, hline, hparted, hlist⟩ := Clause.exists_parted_link hbefore hletters hlink
  have hsame : (before ++ [letters ++ link]).map String.toList
      = before.map String.toList ++ [letters.toList ++ link.toList] := by
    simp
  rw [← hsame] at hline
  obtain ⟨target, hread⟩ := read_deletionLine_of_parted
    (List.append_ne_nil_of_right_ne_nil _ (List.cons_ne_nil _ _)) htags hcategory hline hparted
  refine ⟨target, ?_⟩
  rw [hread, hlist]
  by_cases hnil : letters = ""
  · simp [strings, hnil]
  · have hsome : letters.toList ≠ [] := fun h => hnil (String.toList_eq_nil_iff.mp h)
    simp [strings, hnil, hsome]

/-- The category and the tags of a deletion are read as they were written,
but for a link at the end of the last tag. -/
theorem read_deletionLine (hne : tags ≠ []) (htags : ∀ tag ∈ tags, Clause.IsWord tag.toList)
    (hcategory : Clause.IsWord category.toList) :
    ∃ deletion, read (deletionLine tags category) = .delete deletion
      ∧ deletion.everything = false ∧ deletion.id = none ∧ deletion.category = some category
      ∧ (deletion.tags = tags ↔ ∀ last ∈ tags.getLast?, ¬"in".toList <:+ last.toList.map fold)
      ∧ ∀ before letters link, tags = before ++ [letters ++ link] → Spells link.toList "in".toList →
          deletion.tags = before ++ (if letters = "" then [] else [letters]) := by
  by_cases hlink : ∀ last ∈ tags.getLast?, ¬"in".toList <:+ last.toList.map fold
  · obtain ⟨target, hread⟩ := read_deletionLine_of_not_link hne htags hcategory hlink
    refine ⟨_, hread, rfl, rfl, rfl, ⟨fun _ => hlink, fun _ => rfl⟩, ?_⟩
    rintro before letters link rfl hspells
    -- the last tag would end in the link after all
    refine absurd ?_ (hlink (letters ++ link) (by rw [List.getLast?_concat]; rfl))
    rw [String.toList_append, List.map_append, hspells]
    exact List.suffix_append _ _
  · obtain ⟨last, hmem, hin⟩ : ∃ last ∈ tags.getLast?, "in".toList <:+ last.toList.map fold := by
      simpa only [not_forall, not_not, exists_prop] using hlink
    obtain ⟨begin, rest, hlast, hspells⟩ := exists_letters_of_suffix hin
    obtain ⟨letters, rfl⟩ : ∃ letters, begin = String.toList letters := ⟨.ofList begin, by simp⟩
    obtain ⟨link, rfl⟩ : ∃ link, rest = String.toList link := ⟨.ofList rest, by simp⟩
    obtain rfl : last = letters ++ link := by
      rw [← String.toList_inj, String.toList_append, hlast]
    obtain ⟨before, rfl⟩ := List.getLast?_eq_some_iff.mp hmem
    obtain ⟨target, hread⟩ := read_deletionLine_of_link htags hcategory hspells
    refine ⟨_, hread, rfl, rfl, rfl, ⟨fun hsame => ?_, fun hall => absurd hin (hall _ hmem)⟩, ?_⟩
    · -- a tag without its link is another one
      have hrest : (if letters = "" then [] else [letters]) = [letters ++ link] :=
        List.append_cancel_left hsame
      split at hrest
      · cases hrest
      · have hlength := congrArg String.length (List.cons.inj hrest).1
        have htwo : link.length = 2 := by
          rw [← String.length_toList]
          exact hspells.length
        rw [String.length_append, htwo] at hlength
        omega
    · intro before' letters' link' htags' hspells'
      obtain ⟨rfl, hone⟩ := List.append_inj' htags' rfl
      have hsame : letters.toList ++ link.toList = letters'.toList ++ link'.toList := by
        rw [← String.toList_append, ← String.toList_append, (List.cons.inj hone).1]
      have hlength : link.toList.length = link'.toList.length :=
        hspells.length.trans hspells'.length.symm
      rw [String.toList_inj.mp (List.append_inj' hsame hlength).1]

theorem read_deletionLine_inner :
    let tags := ["berlin", "food"]
    tags ≠ [] ∧ (∀ tag ∈ tags, Clause.IsWord tag.toList) ∧ Clause.IsWord "happy".toList
      ∧ ∃ deletion, read (deletionLine tags "happy") = .delete deletion
        ∧ deletion.everything = false ∧ deletion.id = none ∧ deletion.category = some "happy"
        ∧ (deletion.tags = tags ↔ ∀ last ∈ tags.getLast?, ¬"in".toList <:+ last.toList.map fold)
        ∧ ∀ before letters link, tags = before ++ [letters ++ link] →
            Spells link.toList "in".toList →
            deletion.tags = before ++ (if letters = "" then [] else [letters]) := by
  intro tags
  have htags : ∀ tag ∈ tags, Clause.IsWord tag.toList := by
    intro tag htag
    rcases List.mem_pair.mp htag with rfl | rfl
    · exact ⟨by decide, forall_mem_of_all (by decide)⟩
    · exact ⟨by decide, forall_mem_of_all (by decide)⟩
  have hcategory : Clause.IsWord "happy".toList := ⟨by decide, forall_mem_of_all (by decide)⟩
  exact ⟨by decide, htags, hcategory, read_deletionLine (by decide) htags hcategory⟩

/-- The last letters of a city are taken for the link. -/
theorem berlin_is_cut :
    Clause.IsWord "berlin".toList ∧ Clause.IsWord "happy".toList
      ∧ read (deletionLine ["berlin"] "happy")
        = .delete ⟨.memory, none, false, ["berl"], some "happy"⟩ := by
  refine ⟨⟨by decide, forall_mem_of_all (by decide)⟩, ⟨by decide, forall_mem_of_all (by decide)⟩, ?_⟩
  decide +kernel

end Daybook.Instruction
