/-
A query, written out and read again.

Six readings and three searches for a word go over the line of a query.  Its
clauses are parted by characters that no value holds, so each reading finds
its own clause or none; and the words that ask for more than a value, such as
`first memory`, hold none of those characters either, so a line whose values
are free of them asks for nothing else (`Askable.not_asks`).  A mood counts
only beside no category, and the category alone may hold the words that a mood
is told by.
-/
import Daybook.Proofs.Instruction.Agreement
import Daybook.Proofs.Instruction.Written

namespace Daybook.Instruction

open Text Clause Clause.Written

-- ================================================================ the line

/-- The fields of a query with their labels, in order. -/
def queryFields (tags category date search : Option String) : List (String × Option String) :=
  [("tags", tags), ("category", category), ("from", date), ("containing", search)]

/-- The value of a tags clause, if there are tags. -/
def joined (tags : List String) : Option String := if tags = [] then none else some (", ".intercalate tags)

/-- The line of a query: what it asks for, clause by clause. -/
def queryLine (tags : List String) (category date search : Option String) : String :=
  "show " ++ ". ".intercalate ((written (queryFields (joined tags) category date search)).map
    fun clause => clause.label ++ ": " ++ clause.value)

/-- A query with these values, character by character. -/
def queryChars (tags category date search : Option String) : List Char :=
  "show".toList ++ ' ' :: body (written (queryFields tags category date search))

theorem toList_queryLine (tags : List String) (category date search : Option String) :
    (queryLine tags category date search).toList = queryChars (joined tags) category date search := by
  have hopening : "show ".toList = "show".toList ++ [' '] := by decide
  have hperiod : ". ".toList = ['.', ' '] := by decide
  have hcolon : ": ".toList = [':', ' '] := by decide
  have hclause : (String.toList ∘ fun clause : Written => clause.label ++ ": " ++ clause.value) = text := by
    funext clause
    simp only [Function.comp_apply, String.toList_append, hcolon, List.append_assoc, List.cons_append,
      List.nil_append, text]
  unfold queryLine queryChars body
  rw [String.toList_append, String.toList_intercalate, hopening, hperiod, List.map_map, hclause,
    List.append_assoc, List.singleton_append]

-- ========================================================== the characters

/-- The characters that the values of a query are written with. -/
def IsValueChar (c : Char) : Prop := c.isAlphanum = true ∨ c ∈ [' ', '-', ',']

theorem IsValueChar.not_mem {c : Char} (h : IsValueChar c) :
    c ∉ [':', '.', '#', '\n', '"', '\''] := by
  intro hmem
  have hall : ∀ d ∈ [':', '.', '#', '\n', '"', '\''], ¬(d.isAlphanum = true ∨ d ∈ [' ', '-', ',']) :=
    forall_mem_of_all (by decide)
  exact hall c hmem h

variable {tags category date search : Option String}

/-- Whether the values of a query are written with these characters. -/
def PlainValues (tags category date search : Option String) : Prop :=
  ∀ field ∈ queryFields tags category date search, ∀ value ∈ field.2, ∀ c ∈ value.toList, IsValueChar c

/-- The labels of a query. -/
def queryLabels : List String := ["tags", "category", "from", "containing"]

theorem label_of_mem_query {clause : Written}
    (h : clause ∈ written (queryFields tags category date search)) : clause.label ∈ queryLabels :=
  label_of_mem_written h

section Readings

variable (hvalues : PlainValues tags category date search)

include hvalues

theorem isValueChar_of_mem {clause : Written}
    (h : clause ∈ written (queryFields tags category date search)) :
    ∀ c ∈ clause.value.toList, IsValueChar c := hvalues _ (mem_of_mem_written h) _ rfl

theorem sound_of_mem : ∀ clause ∈ written (queryFields tags category date search), clause.Sound := by
  intro clause hmem
  have hall : ∀ label ∈ queryLabels, label.toList ≠ []
      ∧ label.toList.all (fun c => decide (c ≠ ':' ∧ isBlank c = false)) = true := by decide
  obtain ⟨hne, hchars⟩ := hall clause.label (label_of_mem_query hmem)
  exact ⟨⟨hne, forall_mem_of_all hchars⟩,
    fun hcolon => (isValueChar_of_mem hvalues hmem ':' hcolon).not_mem (by decide)⟩

-- ============================================================ the readings

/-- The tags filter of the line. -/
theorem seek_filterTags_query (hhead : ∀ value ∈ tags, ∀ rest,
      dropQuote (skipBlank (' ' :: (value.toList ++ rest))) = value.toList ++ rest) :
    seek filterTagsHere (queryChars tags category date search) = tags.map String.toList := by
  have hquiet : ∀ other ∈ ["category", "from", "containing"], ∀ tail ∈ other.toList.tails,
      tail.map fold ∉ filterTagsWords.map String.toList := by decide
  have hsound := sound_of_mem hvalues
  have hafter : ∀ clause ∈ written [("category", category), ("from", date), ("containing", search)],
      clause.Sound := fun clause hmem => hsound clause (by
    rw [queryFields, ← List.singleton_append, written_append]
    exact List.mem_append_right _ hmem)
  refine looksFor_filterTags.seek_written (by decide) [] _ hsound hquiet _ fun value hvalue => ?_
  have hplain : ∀ c ∈ value.toList, c ≠ ':' ∧ c ≠ '.' ∧ c ≠ '\n' ∧ isQuote c = false := by
    intro c hc
    have hnot := (hvalues ("tags", tags) List.mem_cons_self value hvalue c hc).not_mem
    simp only [List.mem_cons, List.not_mem_nil, or_false, not_or] at hnot
    simp only [isQuote, Bool.or_eq_false_iff, beq_eq_false_iff_ne]
    exact ⟨hnot.1, hnot.2.1, hnot.2.2.2.1, hnot.2.2.2.2.1, hnot.2.2.2.2.2⟩
  have hhere (rest : List Char) : filterTagsHere ("tags".toList ++ ':' :: rest)
      = some (takeUntil filterTagsEnd (dropQuote (skipBlank rest))) := rfl
  rw [body_cons, hhere, List.cons_append, hhead value hvalue, takeUntil_following hplain hafter]

/-- The category of the line. -/
theorem category?_query (hword : ∀ word ∈ category, word ≠ "" ∧ ∀ c ∈ word.toList, isWordChar c = true) :
    category? (queryChars tags category date search) = category.map String.toList := by
  have hquiet : ∀ other ∈ ["tags", "from", "containing"], ∀ tail ∈ other.toList.tails,
      tail.map fold ∉ ["category".toList] := by decide
  have hlooks := looksFor_clause isLabel_category true fun value =>
    run? isWordChar (dropQuote (skipBlank value))
  refine hlooks.seek_written (by decide) [_] _ (sound_of_mem hvalues) hquiet _ fun word hmem => ?_
  obtain ⟨hne, hchars⟩ := hword word hmem
  have hlabel : Spells "category".toList "category".toList := rfl
  rw [afterLabel_body hlabel, Option.bind_some, List.cons_append]
  refine word_behind_blank_append (fun hnil => hne (String.toList_eq_nil_iff.mp hnil)) hchars _ fun c hc => ?_
  rw [head_following c hc]
  decide

/-- The date of the line. -/
theorem date?_query :
    date? (queryChars tags category date search) = date.map fun value => trim value.toList := by
  have hquiet : ∀ other ∈ ["tags", "category", "containing"], ∀ tail ∈ other.toList.tails,
      tail.map fold ∉ ["from".toList] := by decide
  have hlabel : IsLabel "from".toList := ⟨by decide, forall_mem_of_all (by decide)⟩
  have hlooks := looksFor_clause hlabel false (run? (· ≠ '.'))
  have hfound : clause? "from".toList false (run? (· ≠ '.')) (queryChars tags category date search)
      = date.map fun value => ' ' :: value.toList := by
    refine hlooks.seek_written (by decide) [_, _] _ (sound_of_mem hvalues) hquiet _ fun value hmem => ?_
    have hperiod : '.' ∉ value.toList := fun hmem' =>
      (hvalues ("from", date) (by simp [queryFields]) value hmem '.' hmem').not_mem (by decide)
    have hspells : Spells "from".toList "from".toList := rfl
    rw [afterLabel_body hspells, Option.bind_some, run?_following hperiod]
  have htrim (cs : List Char) : trim (' ' :: cs) = trim cs := trim_blank (by decide) cs
  rw [date?_eq, hfound, Option.map_map]
  simp only [Function.comp_def, htrim]

/-- The text to search for of the line. -/
theorem search?_query :
    search? (queryChars tags category date search) = search.map fun value => trim value.toList := by
  have hquiet : ∀ other ∈ ["tags", "category", "from"], ∀ tail ∈ other.toList.tails,
      tail.map fold ∉ ["containing".toList, "search".toList] := by decide
  have hfound : seek searchHere (queryChars tags category date search)
      = search.map fun value => ' ' :: value.toList := by
    refine looksFor_search.seek_written (by decide) [_, _, _] _ (sound_of_mem hvalues) hquiet _
      fun value hmem => ?_
    have hperiod : '.' ∉ value.toList := fun hmem' =>
      (hvalues ("containing", search) (by simp [queryFields]) value hmem '.' hmem').not_mem (by decide)
    have hspells : Spells "containing".toList "containing".toList := rfl
    rw [searchHere, afterLabel_body hspells, Option.bind_some, run?_following hperiod]
    rfl
  have htrim (cs : List Char) : trim (' ' :: cs) = trim cs := trim_blank (by decide) cs
  rw [search?_eq, hfound, Option.map_map]
  simp only [Function.comp_def, htrim]

end Readings

-- ======================================================== the round trip

/-- The words that ask for more than a value. -/
def askingWords : List String :=
  ["moments", "memories", "first memory", "all tables", "pictures", "images"]

/-- A text that can be the value of a clause: trimmed, of ASCII letters,
digits, blanks and hyphens, and without the words that ask for more. -/
structure IsTerm (value : String) : Prop where
  ne_empty : value ≠ ""
  trimmed : trimmed value = value
  chars : ∀ c ∈ value.toList, c.isAlphanum = true ∨ c = ' ' ∨ c = '-'
  asks : ∀ word ∈ askingWords, ¬word.toList <:+: lowered value.toList

/-- What can be asked for: the category is a word of ASCII letters and
digits. -/
structure Askable (tags : List String) (category date search : Option String) : Prop where
  tags : ∀ tag ∈ tags, IsTerm tag
  category : ∀ word ∈ category, word ≠ "" ∧ (∀ c ∈ word.toList, c.isAlphanum = true)
    ∧ ∀ kind ∈ ["pictures", "images"], ¬kind.toList <:+: lowered word.toList
  date : ∀ value ∈ date, IsTerm value
  search : ∀ value ∈ search, IsTerm value

theorem IsTerm.isValueChar {value : String} (h : IsTerm value) : ∀ c ∈ value.toList, IsValueChar c := by
  intro c hc
  rcases h.chars c hc with hword | rfl | rfl
  · exact .inl hword
  · exact .inr (by decide)
  · exact .inr (by decide)

theorem IsTerm.isTag {value : String} (h : IsTerm value) : IsTag value.toList where
  ne_nil := fun hnil => h.ne_empty (String.toList_eq_nil_iff.mp hnil)
  trim := by rw [← toList_trimmed, h.trimmed]
  chars := fun c hc => by
    have hnot := (h.isValueChar c hc).not_mem
    simp only [List.mem_cons, List.not_mem_nil, or_false, not_or] at hnot
    refine ⟨?_, hnot.1, hnot.2.2.2.1, ?_⟩
    · rintro rfl
      exact absurd (h.chars ',' hc) (by decide)
    · simp only [isQuote, Bool.or_eq_false_iff, beq_eq_false_iff_ne]
      exact ⟨hnot.2.2.2.2.1, hnot.2.2.2.2.2⟩

/-- A term says something, and is read as it is. -/
theorem IsTerm.nonempty? {value : String} (h : IsTerm value) :
    nonempty? (some (trim value.toList)) = some value := by
  have htrim : trim value.toList = value.toList := by rw [← toList_trimmed, h.trimmed]
  obtain ⟨c, cs, hcs⟩ := List.exists_cons_of_ne_nil h.isTag.ne_nil
  rw [htrim, hcs, Instruction.nonempty?, ← hcs, String.ofList_toList]

variable {terms : List String}

/-- The value of a tags clause is the line that joins the tags. -/
theorem toList_of_mem_joined {value : String} (h : value ∈ joined terms) :
    terms ≠ [] ∧ value.toList = [',', ' '].intercalate (terms.map String.toList) := by
  have hcomma : ", ".toList = [',', ' '] := by decide
  unfold joined at h
  split at h
  · cases h
  · next hne =>
      cases h
      exact ⟨hne, by rw [String.toList_intercalate, hcomma]⟩

namespace Askable

variable (h : Askable terms category date search)

include h

theorem isTag : ∀ tag ∈ terms.map String.toList, IsTag tag := by
  intro text htext
  obtain ⟨tag, hmem, rfl⟩ := List.mem_map.mp htext
  exact (h.tags tag hmem).isTag

theorem plainValues : PlainValues (joined terms) category date search := by
  intro field hfield value hvalue c hc
  simp only [queryFields, List.mem_cons, List.not_mem_nil, or_false] at hfield
  rcases hfield with rfl | rfl | rfl | rfl
  · rw [(toList_of_mem_joined hvalue).2] at hc
    rcases mem_intercalate hc with rfl | rfl | ⟨text, htext, hc⟩
    · exact .inr (by decide)
    · exact .inr (by decide)
    · obtain ⟨tag, hmem, rfl⟩ := List.mem_map.mp htext
      exact (h.tags tag hmem).isValueChar c hc
  · exact .inl ((h.category value hvalue).2.1 c hc)
  · exact (h.date value hvalue).isValueChar c hc
  · exact (h.search value hvalue).isValueChar c hc

/-- The characters of the line. -/
theorem chars_line : ∀ c ∈ queryChars (joined terms) category date search,
    c.toNat < 128 ∧ c ≠ '#' := by
  intro c hc
  have hlabels : ∀ label ∈ queryLabels,
      label.toList.all (fun c => decide (c.toNat < 128 ∧ c ≠ '#')) = true := by decide
  have hword : ∀ c ∈ "show".toList, c.toNat < 128 ∧ c ≠ '#' := forall_mem_of_all (by decide)
  have hseparators : ∀ c ∈ [':', '.', ' '], c.toNat < 128 ∧ c ≠ '#' := forall_mem_of_all (by decide)
  rw [queryChars, List.mem_append, List.mem_cons] at hc
  rcases hc with hc | rfl | hc
  · exact hword c hc
  · decide
  rcases mem_body hc with hc | ⟨clause, hmem, hc | hc⟩
  · exact hseparators c hc
  · exact forall_mem_of_all (hlabels clause.label (label_of_mem_query hmem)) c hc
  · have hchar := isValueChar_of_mem h.plainValues hmem c hc
    refine ⟨?_, fun hmark => hchar.not_mem (by rw [hmark]; decide)⟩
    rcases hchar with hword | hc
    · exact toNat_of_isAlphanum hword
    · have hothers : ∀ c ∈ [' ', '-', ','], c.toNat < 128 := forall_mem_of_all (by decide)
      exact hothers c hc

/-- The tags of the line. -/
theorem filterTags_line :
    filterTags true (queryChars (joined terms) category date search) = terms.map String.toList := by
  have hhead : ∀ value ∈ joined terms, ∀ rest,
      dropQuote (skipBlank (' ' :: (value.toList ++ rest))) = value.toList ++ rest := by
    intro value hvalue rest
    obtain ⟨hne, hline⟩ := toList_of_mem_joined hvalue
    obtain ⟨hskip, hquote⟩ := skipBlank_intercalate (by simpa using hne) h.isTag rest
    rw [hline, hskip, hquote]
  unfold filterTags
  rw [seek_filterTags_query h.plainValues hhead]
  by_cases hne : terms = []
  · have hmarks := hashtags_eq_nil fun hmem => (h.chars_line '#' hmem).2 rfl
    subst hne
    exact hmarks
  · have hvalue : joined terms = some (", ".intercalate terms) := if_neg hne
    have hline := (toList_of_mem_joined hvalue).2
    rw [hvalue, Option.map_some]
    show tagList (", ".intercalate terms).toList = _
    rw [hline, tagList_intercalate (by simpa using hne) h.isTag]

/-- No word that asks for more stands in the line, but for a mood's beside a
category. -/
theorem not_asks {word : String} (hword : word ∈ askingWords)
    (hmood : word ∈ ["moments", "memories"] → category = none) :
    ¬word.toList <:+: lowered (queryChars (joined terms) category date search) := by
  have hparts : ∀ word ∈ askingWords, ':' ∉ word.toList ∧ '.' ∉ word.toList ∧ ',' ∉ word.toList
      ∧ word.toList.head?.any (fun c => decide (c ≠ ' ')) = true
      ∧ ¬word.toList <:+: lowered ("show".toList ++ [' '])
      ∧ ∀ label ∈ queryLabels, ¬word.toList <:+: lowered ("show".toList ++ ' ' :: label.toList) := by
    decide
  obtain ⟨hcolon, hperiod, hcomma, hfirst, hopening, hlabels⟩ := hparts word hword
  have hhead : ∃ c ∈ word.toList.head?, c ≠ ' ' := exists_mem_of_option hfirst
  refine not_infix_body ⟨hcolon, hperiod, hhead⟩ (fun clause hmem => ?_) hopening fun clause hmem =>
    hlabels clause.label (label_of_mem_query hmem)
  have hfield := mem_of_mem_written hmem
  simp only [queryFields, List.mem_cons, List.not_mem_nil, or_false, Prod.mk.injEq] at hfield
  rcases hfield with ⟨-, hvalue⟩ | ⟨-, hvalue⟩ | ⟨-, hvalue⟩ | ⟨-, hvalue⟩
  · rw [(toList_of_mem_joined hvalue.symm).2]
    refine not_infix_intercalate ⟨hcomma, hhead⟩ fun text htext => ?_
    obtain ⟨tag, hmem, rfl⟩ := List.mem_map.mp htext
    exact (h.tags tag hmem).asks word hword
  · obtain ⟨-, hchars, hkinds⟩ := h.category clause.value hvalue.symm
    have hblank : ' ' ∉ lowered clause.value.toList :=
      blank_not_mem_lowered fun hmem => absurd (hchars ' ' hmem) (by decide)
    simp only [askingWords, List.mem_cons, List.not_mem_nil, or_false] at hword
    rcases hword with rfl | rfl | rfl | rfl | rfl | rfl
    · rw [hmood (by decide)] at hvalue
      cases hvalue
    · rw [hmood (by decide)] at hvalue
      cases hvalue
    · exact fun hin => hblank (hin.mem (by decide))
    · exact fun hin => hblank (hin.mem (by decide))
    · exact hkinds _ (by decide)
    · exact hkinds _ (by decide)
  · exact (h.date clause.value hvalue.symm).asks word hword
  · exact (h.search clause.value hvalue.symm).asks word hword

/-- The category of the line, or the mood that stands for it. -/
theorem category_line :
    ((category? (queryChars (joined terms) category date search)).or
      (mood? (queryChars (joined terms) category date search))).map String.ofList = category := by
  have hword : ∀ word ∈ category, word ≠ "" ∧ ∀ c ∈ word.toList, isWordChar c = true := by
    intro word hmem
    obtain ⟨hne, hchars, -⟩ := h.category word hmem
    refine ⟨hne, fun c hc => ?_⟩
    rw [isWordChar, if_pos (toNat_of_isAlphanum (hchars c hc)), hchars c hc]
    rfl
  rw [category?_query h.plainValues hword]
  cases category with
  | some word => simp
  | none =>
      have hlowered : lowered (queryChars (joined terms) none date search)
          = (queryChars (joined terms) none date search).map fold :=
        lowered_eq_map_fold fun c hc => (h.chars_line c hc).1
      have hmood : mood? (queryChars (joined terms) none date search) = none := by
        refine mood?_eq_none fun noun hmem => ?_
        rw [← hlowered]
        have hasks : ∀ noun ∈ ["moments", "memories"], noun ∈ askingWords := by decide
        exact h.not_asks (hasks noun hmem) fun _ => rfl
      rw [Option.map_none, hmood]
      rfl

end Askable

/-- A term that is there is read as it is. -/
theorem nonempty?_map {value : Option String} (h : ∀ term ∈ value, IsTerm term) :
    nonempty? (value.map fun term => trim term.toList) = value := by
  cases value with
  | none => rfl
  | some term => exact (h term rfl).nonempty?

/-- A query is read back from its line: all that it asks for, and nothing
else. -/
theorem read_queryLine (h : Askable terms category date search) :
    read (queryLine terms category date search) = .retrieve ⟨terms, category, date, search, false, none⟩ := by
  have hothers : ∀ word ∈ ["first memory", "pictures", "images", "all tables"],
      word ∈ askingWords ∧ word ∉ ["moments", "memories"] := by decide
  have hcontains : ∀ word ∈ ["first memory", "pictures", "images", "all tables"],
      contains word (lowered (queryChars (joined terms) category date search)) = false := by
    intro word hmem
    obtain ⟨hasking, hnoun⟩ := hothers word hmem
    rw [Bool.eq_false_iff, Ne, contains_eq_true_iff]
    exact h.not_asks hasking fun hmood => absurd hmood hnoun
  have hread : read (queryLine terms category date search)
      = .retrieve (readQuery (queryChars (joined terms) category date search)) := by
    unfold read
    rw [toList_queryLine]
    exact readChars_show _
  rw [hread]
  unfold readQuery
  simp only [h.filterTags_line, h.category_line, date?_query h.plainValues, search?_query h.plainValues,
    nonempty?_map h.date, nonempty?_map h.search, strings_map_toList, hcontains "first memory" (by decide),
    hcontains "pictures" (by decide), hcontains "images" (by decide), hcontains "all tables" (by decide)]
  rfl

theorem askable_trip : Askable ["work", "travel plans"] (some "home2") (some "last week") (some "sea-side") where
  tags := fun tag hmem => by
    rcases List.mem_pair.mp hmem with rfl | rfl
    · exact ⟨by decide, by decide, forall_mem_of_all (by decide), by decide⟩
    · exact ⟨by decide, by decide, forall_mem_of_all (by decide), by decide⟩
  category := fun word hmem => by
    cases hmem
    exact ⟨by decide, forall_mem_of_all (by decide), by decide⟩
  date := fun value hmem => by
    cases hmem
    exact ⟨by decide, by decide, forall_mem_of_all (by decide), by decide⟩
  search := fun value hmem => by
    cases hmem
    exact ⟨by decide, by decide, forall_mem_of_all (by decide), by decide⟩

theorem read_queryLine_trip :
    Askable ["work", "travel plans"] (some "home2") (some "last week") (some "sea-side")
      ∧ read (queryLine ["work", "travel plans"] (some "home2") (some "last week") (some "sea-side"))
        = .retrieve ⟨["work", "travel plans"], some "home2", some "last week", some "sea-side", false, none⟩ :=
  ⟨askable_trip, read_queryLine askable_trip⟩

/-- The line of such a query. -/
example : queryLine ["work", "travel plans"] none (some "last week") none
    = "show tags: work, travel plans. from: last week" := by decide

end Daybook.Instruction
