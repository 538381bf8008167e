/-
Tags that are stored, and tags that a filter names.

Both lists stand behind the same label, but they do not end at the same
characters: a filter ends at the first period, and a memory to be stored
keeps it.  A list of tags holds no other character at which a filter ends, so
the period alone decides (`takeUntil_filterTagsEnd`): all tags of a list are
named as they are stored if none of them holds one, and otherwise the filter
names the tags before the first period and what stands before it
(`stored_as_named_iff`).
-/
import Daybook.Proofs.Instruction.Deletion
import Daybook.Proofs.Instruction.Filter

namespace Daybook.Clause

open Text

variable {tags before after : List (List Char)} {opening front rest : List Char}

-- ====================================================== up to the period

/-- Where no clause begins and no quote stands, a filter ends at a period. -/
theorem takeUntil_filterTagsEnd {cs : List Char}
    (h : ∀ c ∈ cs, c ≠ ':' ∧ c ≠ '\n' ∧ isQuote c = false) :
    takeUntil filterTagsEnd cs = cs.takeWhile (· ≠ '.') := by
  induction cs with
  | nil => rfl
  | cons c cs ih =>
      obtain ⟨-, hbreak, hquote⟩ := h c List.mem_cons_self
      have hahead : categoryAhead true (c :: cs) = false :=
        categoryAhead_eq_false fun hmem => (h ':' hmem).1 rfl
      have hend : filterTagsEnd (c :: cs) = (c == '.') := by
        simp [filterTagsEnd, hquote, hahead, hbreak]
      have hrest := ih fun d hd => h d (List.mem_cons_of_mem c hd)
      by_cases hc : c = '.'
      · rw [takeUntil, hend, if_pos (beq_iff_eq.mpr hc), List.takeWhile_cons_of_neg (by simp [hc])]
      · rw [takeUntil, hend, if_neg (by simp [hc]), hrest, List.takeWhile_cons_of_pos (by simp [hc])]

/-- What a filter names of a list of tags. -/
theorem filterTags_joined (hopening : opening ∈ filterOpenings) (hne : tags ≠ [])
    (htags : ∀ tag ∈ tags, IsTag tag) (hashtagsCount : Bool) :
    filterTags hashtagsCount (opening ++ "tags".toList ++ ':' :: ' ' :: [',', ' '].intercalate tags)
      = tagList (([',', ' '].intercalate tags).takeWhile (· ≠ '.')) := by
  obtain ⟨hskip, hquote⟩ := skipBlank_intercalate hne htags []
  rw [List.append_nil] at hskip hquote
  unfold filterTags
  rw [seek_filterTagsHere hopening, hskip, hquote, takeUntil_filterTagsEnd (chars_intercalate htags)]

/-- Joining adds no period. -/
theorem ne_period_of_mem_intercalate (h : ∀ tag ∈ tags, '.' ∉ tag) :
    ∀ c ∈ [',', ' '].intercalate tags, decide (c ≠ '.') = true := by
  intro c hc
  rw [decide_eq_true_eq]
  rintro rfl
  rcases mem_intercalate hc with hcomma | hblank | ⟨tag, htag, hmem⟩
  · cases hcomma
  · cases hblank
  · exact h tag htag hmem

/-- Without a period, all tags are named. -/
theorem filterTags_without_period (hopening : opening ∈ filterOpenings) (hne : tags ≠ [])
    (htags : ∀ tag ∈ tags, IsTag tag) (hashtagsCount : Bool) (hperiod : ∀ tag ∈ tags, '.' ∉ tag) :
    filterTags hashtagsCount (opening ++ "tags".toList ++ ':' :: ' ' :: [',', ' '].intercalate tags)
      = tags := by
  have hall : ([',', ' '].intercalate tags).takeWhile (· ≠ '.') = [',', ' '].intercalate tags :=
    List.takeWhile_eq_self_iff.mpr (ne_period_of_mem_intercalate hperiod)
  rw [filterTags_joined hopening hne htags, hall, tagList_intercalate hne htags]

/-- With a period, the tags before it are named, and what stands before it. -/
theorem filterTags_at_period (hopening : opening ∈ filterOpenings)
    (htags : ∀ tag ∈ before ++ (front ++ '.' :: rest) :: after, IsTag tag) (hashtagsCount : Bool)
    (hperiod : ∀ tag ∈ before ++ [front], '.' ∉ tag) :
    filterTags hashtagsCount (opening ++ "tags".toList ++ ':' :: ' ' ::
        [',', ' '].intercalate (before ++ (front ++ '.' :: rest) :: after))
      = before ++ (if trim front = [] then [] else [trim front]) := by
  have hcut : ([',', ' '].intercalate (before ++ (front ++ '.' :: rest) :: after)).takeWhile (· ≠ '.')
      = [',', ' '].intercalate (before ++ [front]) := by
    obtain ⟨more, hmore⟩ := exists_intercalate_append before front ('.' :: rest) after
    rw [hmore, List.takeWhile_append_of_pos (ne_period_of_mem_intercalate hperiod), List.cons_append,
      List.takeWhile_cons_of_neg (by decide), List.append_nil]
  have hbefore : ∀ tag ∈ before, IsTag tag := fun tag hmem => htags tag (List.mem_append_left _ hmem)
  have hfront : ∀ c ∈ front, c ≠ ',' ∧ isQuote c = false := fun c hc =>
    have hchars := (htags _ (List.mem_append_right _ List.mem_cons_self)).chars c (List.mem_append_left _ hc)
    ⟨hchars.1, hchars.2.2.2⟩
  have htrim : before.map trim = before := by
    rw [List.map_congr_left fun tag hmem => (hbefore tag hmem).trim]
    exact List.map_id' before
  have hkeep : before.filter (· ≠ []) = before :=
    List.filter_eq_self.mpr fun tag hmem => decide_eq_true (hbefore tag hmem).ne_nil
  rw [filterTags_joined hopening (List.append_ne_nil_of_right_ne_nil _ (List.cons_ne_nil _ _)) htags, hcut,
    tagList_joined (List.append_ne_nil_of_right_ne_nil _ (List.cons_ne_nil _ _)) fun tag hmem => ?_,
    List.map_append, htrim, List.filter_append, hkeep]
  · by_cases hnil : trim front = []
    · simp [hnil]
    · simp [hnil]
  · rcases List.mem_append.mp hmem with hmem | hmem
    · have hchars := (hbefore tag hmem).chars
      exact ⟨fun hcomma => (hchars ',' hcomma).1 rfl, fun c hc => (hchars c hc).2.2.2⟩
    · rw [List.mem_singleton.mp hmem]
      exact ⟨fun hcomma => (hfront ',' hcomma).1 rfl, fun c hc => (hfront c hc).2⟩

end Daybook.Clause

namespace Daybook.Instruction

open Text

-- ==================================================== storing and filtering

/-- The line of a memory to be stored with some tags. -/
def storingLine (tags : List String) : String := "create memory: tags: " ++ ", ".intercalate tags

/-- A line that filters by some tags. -/
def filteringLine (opening : String) (tags : List String) : String :=
  opening ++ "tags: " ++ ", ".intercalate tags

variable {tags : List String} {opening : String}

/-- The tags that a line stores. -/
def storedTags (tags : List String) : List String := strings (Clause.memoryTags (storingLine tags).toList)

/-- The tags that a line filters by. -/
def namedTags (opening : String) (hashtagsCount : Bool) (tags : List String) : List String :=
  strings (Clause.filterTags hashtagsCount (filteringLine opening tags).toList)

theorem toList_storingLine (hne : tags ≠ []) :
    (storingLine tags).toList = Clause.withClauses [] none (tags.map String.toList) := by
  have hcomma : ", ".toList = [',', ' '] := by decide
  have hopening : "create memory: tags: ".toList
      = "create memory".toList ++ ':' :: (" tags".toList ++ [':', ' ']) := by decide
  have hclause : Clause.tagsClause (tags.map String.toList)
      = " tags".toList ++ [':', ' '] ++ [',', ' '].intercalate (tags.map String.toList) := by
    obtain ⟨tag, more, rfl⟩ := List.exists_cons_of_ne_nil hne
    rw [List.map_cons, Clause.tagsClause, List.append_assoc]
    rfl
  unfold storingLine Clause.withClauses Clause.categoryClause
  simp only [String.toList_append, String.toList_intercalate, hcomma, hopening, hclause, List.append_assoc,
    List.cons_append, List.nil_append, List.append_nil]

/-- All tags are stored. -/
theorem stored_eq (hne : tags ≠ []) (htags : ∀ tag ∈ tags, Clause.IsTag tag.toList) :
    storedTags tags = tags := by
  have hread : Clause.memoryTags (Clause.withClauses [] none (tags.map String.toList))
      = tags.map String.toList :=
    Clause.memoryTags_withClauses List.not_mem_nil List.not_mem_nil (List.forall_mem_map.mpr htags)
      (fun _ hnone => (nomatch hnone)) (fun hnone => absurd rfl hnone)
  unfold storedTags
  rw [toList_storingLine hne, hread, strings_map_toList]

theorem toList_filteringLine (opening : String) (tags : List String) : (filteringLine opening tags).toList
    = opening.toList ++ "tags".toList ++ ':' :: ' ' :: [',', ' '].intercalate (tags.map String.toList) := by
  have hcomma : ", ".toList = [',', ' '] := by decide
  have hlabel : "tags: ".toList = "tags".toList ++ [':', ' '] := by decide
  unfold filteringLine
  simp only [String.toList_append, String.toList_intercalate, hcomma, hlabel, List.append_assoc,
    List.cons_append, List.nil_append]

/-- A tag with a period is named up to it, and no tag behind it is named. -/
theorem named_at_period {before after : List String} {front rest : String}
    (hopening : opening.toList ∈ Clause.filterOpenings) (hashtagsCount : Bool)
    (htags : ∀ tag ∈ before ++ (front ++ "." ++ rest) :: after, Clause.IsTag tag.toList)
    (hperiod : ∀ tag ∈ before ++ [front], '.' ∉ tag.toList) :
    namedTags opening hashtagsCount (before ++ (front ++ "." ++ rest) :: after)
      = before ++ (if trimmed front = "" then [] else [trimmed front]) := by
  have hdot : ".".toList = ['.'] := by decide
  have hmap : (before ++ (front ++ "." ++ rest) :: after).map String.toList = before.map String.toList
      ++ (front.toList ++ '.' :: rest.toList) :: after.map String.toList := by
    simp [hdot]
  have htags' := List.forall_mem_map.mpr htags
  have hperiod' : ∀ text ∈ before.map String.toList ++ [front.toList], '.' ∉ text := by
    rw [← List.map_singleton, ← List.map_append]
    exact List.forall_mem_map.mpr hperiod
  rw [hmap] at htags'
  unfold namedTags
  rw [toList_filteringLine, hmap, Clause.filterTags_at_period hopening htags' hashtagsCount hperiod']
  have hempty : trimmed front = "" ↔ trim front.toList = [] := by
    rw [← toList_trimmed, String.toList_eq_nil_iff]
  by_cases hnil : trim front.toList = []
  · rw [if_pos hnil, if_pos (hempty.mpr hnil), List.append_nil, List.append_nil, strings_map_toList]
  · rw [if_neg hnil, if_neg (mt hempty.mp hnil), ← toList_trimmed, ← List.map_singleton,
      ← List.map_append, strings_map_toList]

/-- Tags without periods are all named. -/
theorem named_eq (hopening : opening.toList ∈ Clause.filterOpenings) (hne : tags ≠ [])
    (htags : ∀ tag ∈ tags, Clause.IsTag tag.toList) (hashtagsCount : Bool)
    (hperiod : ∀ tag ∈ tags, '.' ∉ tag.toList) : namedTags opening hashtagsCount tags = tags := by
  have hsome : tags.map String.toList ≠ [] := by simpa using hne
  have htags' := List.forall_mem_map.mpr htags
  have hperiod' : ∀ text ∈ tags.map String.toList, '.' ∉ text := List.forall_mem_map.mpr hperiod
  unfold namedTags
  rw [toList_filteringLine, Clause.filterTags_without_period hopening hsome htags' hashtagsCount hperiod',
    strings_map_toList]

/-- The first period in a list of texts. -/
theorem exists_first_period (tags : List String) : (∀ tag ∈ tags, '.' ∉ tag.toList)
    ∨ ∃ before front rest after, tags = before ++ (front ++ "." ++ rest) :: after
      ∧ ∀ tag ∈ before ++ [front], '.' ∉ tag.toList := by
  induction tags with
  | nil => exact .inl fun tag hmem => nomatch hmem
  | cons first tags ih =>
      by_cases hfirst : '.' ∈ first.toList
      · obtain ⟨front, rest, hsplit, hfront⟩ := List.eq_append_cons_of_mem hfirst
        refine .inr ⟨[], String.ofList front, String.ofList rest, tags, ?_, fun tag hmem => ?_⟩
        · have hdot : ".".toList = ['.'] := by decide
          have hsame : first = String.ofList front ++ "." ++ String.ofList rest := by
            rw [← String.toList_inj, hsplit]
            simp [hdot]
          rw [List.nil_append, ← hsame]
        · rw [List.mem_singleton.mp hmem, String.toList_ofList]
          exact hfront
      · rcases ih with hnone | ⟨before, front, rest, after, rfl, hperiod⟩
        · exact .inl fun tag hmem => (List.mem_cons.mp hmem).elim (fun heq => heq ▸ hfirst) (hnone tag)
        · refine .inr ⟨first :: before, front, rest, after, rfl, fun tag hmem => ?_⟩
          exact (List.mem_cons.mp hmem).elim (fun heq => heq ▸ hfirst) (hperiod tag)

/-- What is stored of a list of tags is named by a filter exactly if no tag
holds a period: a filter ends there, and names no more than what stands
before it. -/
theorem stored_as_named_iff (hne : tags ≠ []) (htags : ∀ tag ∈ tags, Clause.IsTag tag.toList) :
    storedTags tags = tags ∧ ∀ opening ∈ ["show ", "delete memories "], ∀ hashtagsCount,
      (storedTags tags = namedTags opening hashtagsCount tags ↔ ∀ tag ∈ tags, '.' ∉ tag.toList)
      ∧ ∀ before front rest after, tags = before ++ (front ++ "." ++ rest) :: after →
        (∀ tag ∈ before ++ [front], '.' ∉ tag.toList) → namedTags opening hashtagsCount tags
          = before ++ (if trimmed front = "" then [] else [trimmed front]) := by
  refine ⟨stored_eq hne htags, fun opening hopening hashtagsCount => ?_⟩
  have hopening' : opening.toList ∈ Clause.filterOpenings := by
    rcases List.mem_pair.mp hopening with rfl | rfl
    · decide
    · decide
  refine ⟨⟨fun hsame => ?_, fun hperiod => ?_⟩, ?_⟩
  · rcases exists_first_period tags with hnone | ⟨before, front, rest, after, rfl, hperiod⟩
    · exact hnone
    · -- the tag with the period would be named without it
      rw [stored_eq hne htags, named_at_period hopening' hashtagsCount htags hperiod] at hsame
      have hlist := List.append_cancel_left hsame
      split at hlist
      · cases hlist
      · have hfront : '.' ∉ front.toList := hperiod front (List.mem_append_right _ List.mem_cons_self)
        have htag : front ++ "." ++ rest = trimmed front := (List.cons.inj hlist).1
        refine absurd (mem_of_mem_trim ?_) hfront
        rw [← toList_trimmed, ← htag]
        simp
  · rw [stored_eq hne htags, named_eq hopening' hne htags hashtagsCount hperiod]
  · rintro before front rest after rfl hperiod
    exact named_at_period hopening' hashtagsCount htags hperiod

/-- The tag behind the one with the period is lost, too. -/
theorem stored_as_named_iff_version :
    let tags := ["summer", "v1.0", "sea"]
    tags ≠ [] ∧ (∀ tag ∈ tags, Clause.IsTag tag.toList)
      ∧ storedTags tags = tags ∧ namedTags "delete memories " true tags = ["summer", "v1"] := by
  intro tags
  have htags : ∀ tag ∈ tags, Clause.IsTag tag.toList := by
    intro tag htag
    simp only [tags, List.mem_cons, List.not_mem_nil, or_false] at htag
    rcases htag with rfl | rfl | rfl
    · exact ⟨by decide, by decide, forall_mem_of_all (by decide)⟩
    · exact ⟨by decide, by decide, forall_mem_of_all (by decide)⟩
    · exact ⟨by decide, by decide, forall_mem_of_all (by decide)⟩
  obtain ⟨hstored, hnamed⟩ := stored_as_named_iff (List.cons_ne_nil _ _) htags
  have hperiod : ∀ tag ∈ ["summer"] ++ ["v1"], '.' ∉ tag.toList := by decide
  have hfront : trimmed "v1" = "v1" := by decide
  refine ⟨List.cons_ne_nil _ _, htags, hstored, ?_⟩
  rw [(hnamed "delete memories " (by decide) true).2 ["summer"] "v1" "0" ["sea"] rfl hperiod, hfront]
  rfl

/-- A version is stored, and another one is named. -/
theorem version_is_cut : Clause.IsTag "v1.0".toList
    ∧ storedTags ["v1.0"] = ["v1.0"] ∧ namedTags "show " true ["v1.0"] = ["v1"] := by
  refine ⟨⟨by decide, by decide, forall_mem_of_all (by decide)⟩, ?_⟩
  decide +kernel

end Daybook.Instruction
