/-
The content of a memory to be created.

Content between quotes ends at the next quote of either kind, so it is read
whole exactly if it holds no quote at all; what is read of any other is its
first stretch without quotes (`quoted?_between`).  Content without quotes is
what is left of the line when its clauses are taken off, and a clause takes
its link along (`without_parted`): content that ends in other letters is left
whole, and content of which the last word is the link is left without it.
-/
import Daybook.Proofs.Instruction.Creation
import Daybook.Proofs.Instruction.Deletion

namespace Daybook.Clause

open Text

variable {front behind content category : List Char} {tags : List (List Char)}

-- ======================================================== between quotes

/-- The first stretch of a text that holds no quote; quotes before it are
passed over. -/
def firstStretch (cs : List Char) : List Char :=
  (cs.dropWhile isQuote).takeWhile fun c => !isQuote c

theorem firstStretch_quote {c : Char} (hc : isQuote c = true) (cs : List Char) :
    firstStretch (c :: cs) = firstStretch cs := by
  simp [firstStretch, hc]

/-- The first stretch holds no quote. -/
theorem not_quote_of_mem_firstStretch {cs : List Char} : ∀ c ∈ firstStretch cs, isQuote c = false := by
  intro c hc
  simpa using List.all_eq_true.mp List.all_takeWhile c hc

/-- A text that begins with no quote begins with its first stretch, and that
ends with the text or at a quote. -/
theorem exists_firstStretch {c last : Char} (hc : isQuote c = false) (hlast : isQuote last = true)
    (cs : List Char) : firstStretch (c :: cs) ≠ [] ∧ ∃ d rest, isQuote d = true
      ∧ c :: (cs ++ [last]) = firstStretch (c :: cs) ++ d :: rest := by
  have hstart : firstStretch (c :: cs) = (c :: cs).takeWhile fun c => !isQuote c := by
    unfold firstStretch
    rw [List.dropWhile_cons_of_neg (Bool.eq_false_iff.mp hc)]
  have hparts : firstStretch (c :: cs) ++ (c :: cs).dropWhile (fun c => !isQuote c) = c :: cs := by
    rw [hstart]
    exact List.takeWhile_append_dropWhile
  refine ⟨by simp [hstart, hc], ?_⟩
  cases hmore : (c :: cs).dropWhile fun c => !isQuote c with
  | nil =>
      rw [hmore, List.append_nil] at hparts
      exact ⟨last, [], hlast, by rw [hparts]; rfl⟩
  | cons d more =>
      have hd : isQuote d = true := by
        have hnot := List.head?_dropWhile_not (fun c => !isQuote c) (c :: cs)
        rw [hmore] at hnot
        simpa using hnot
      refine ⟨d, more ++ [last], hd, ?_⟩
      rw [hmore] at hparts
      calc c :: (cs ++ [last]) = (firstStretch (c :: cs) ++ d :: more) ++ [last] := by
            rw [hparts]
            rfl
        _ = firstStretch (c :: cs) ++ d :: (more ++ [last]) := by rw [List.append_assoc]; rfl

/-- What is read between two quotes is the first stretch between them. -/
theorem quoted?_between {first last : Char} (hfirst : isQuote first = true)
    (hlast : isQuote last = true) (text : List Char) :
    quoted? (first :: (text ++ [last]))
      = if firstStretch text = [] then none else some (firstStretch text) := by
  induction text generalizing first with
  | nil => simp [quoted?, seek, quotedHere, run?, firstStretch, hfirst, hlast]
  | cons c text ih =>
      by_cases hc : isQuote c = true
      · -- nothing stands between this quote and the next one
        have hhere : quotedHere (first :: (c :: text ++ [last])) = none := by
          simp [quotedHere, run?, hfirst, hc]
        have hbehind : quoted? (first :: (c :: text ++ [last])) = quoted? (c :: (text ++ [last])) := by
          unfold quoted?
          rw [seek, hhere]
          rfl
        rw [hbehind, firstStretch_quote hc]
        exact ih hc
      · obtain ⟨hne, d, rest, hd, hsame⟩ :=
          exists_firstStretch (Bool.eq_false_iff.mpr hc) hlast text
        rw [List.cons_append, hsame, if_neg hne]
        exact seek_of_eq_some (quotedHere_append hfirst hne not_quote_of_mem_firstStretch hd)

/-- A text without quotes is all one stretch. -/
theorem firstStretch_eq_self_iff {cs : List Char} :
    firstStretch cs = cs ↔ ∀ c ∈ cs, isQuote c = false := by
  constructor
  · intro h
    rw [← h]
    exact not_quote_of_mem_firstStretch
  · intro h
    unfold firstStretch
    cases cs with
    | nil => rfl
    | cons c cs =>
        have hc : ¬isQuote c = true := Bool.eq_false_iff.mp (h c List.mem_cons_self)
        rw [List.dropWhile_cons_of_neg hc, List.takeWhile_eq_self_iff]
        intro d hd
        simp [h d hd]

/-- A text without a stretch is all quotes. -/
theorem firstStretch_eq_nil_iff {cs : List Char} :
    firstStretch cs = [] ↔ ∀ c ∈ cs, isQuote c = true := by
  induction cs with
  | nil => simp [firstStretch]
  | cons c cs ih =>
      by_cases hc : isQuote c = true
      · simp [firstStretch_quote hc, ih, hc]
      · have hquote : isQuote '"' = true := rfl
        have hne := (exists_firstStretch (Bool.eq_false_iff.mpr hc) hquote cs).1
        simp [hne, hc]

-- ====================================================== behind the colon

/-- What a clause does not read is left whole. -/
theorem without_append {clause : List Char → Option (List Char)} {part rest : List Char}
    (h : ∀ tail, tail <:+ part → tail ≠ [] → clause (tail ++ rest) = none) :
    without clause 0 (part ++ rest) = part ++ without clause 0 rest := by
  induction part with
  | nil => rfl
  | cons c part ih =>
      have hhere : clause (c :: (part ++ rest)) = none :=
        h (c :: part) (List.suffix_refl _) (List.cons_ne_nil c part)
      have hbehind := ih fun tail htail => h tail (htail.trans (List.suffix_cons c part))
      simp only [List.cons_append, without, hhere, hbehind]

theorem without_eq_self {clause : List Char → Option (List Char)} {cs : List Char}
    (h : ∀ tail, tail <:+ cs → clause tail = none) : without clause 0 cs = cs := by
  have hall : without clause 0 (cs ++ []) = cs ++ without clause 0 [] :=
    without_append fun tail htail _ => by rw [List.append_nil]; exact h tail htail
  simpa [without] using hall

/-- Nothing is left of what is still to be dropped. -/
theorem without_of_length_le {clause : List Char → Option (List Char)} {skip : Nat} {cs : List Char}
    (h : cs.length ≤ skip) : without clause skip cs = [] := by
  induction cs generalizing skip with
  | nil => rfl
  | cons c cs ih =>
      cases skip with
      | zero => simp at h
      | succ skip => exact ih (Nat.le_of_succ_le_succ h)

/-- Nothing is left of a clause that reaches to the end. -/
theorem without_eq_nil {clause : List Char → Option (List Char)} {cs : List Char}
    (h : clause cs = some []) : without clause 0 cs = [] := by
  cases cs with
  | nil => rfl
  | cons c cs =>
      simp only [without, h]
      exact without_of_length_le (by simp)

/-- Nothing is left of a clause behind a text that reaches to the end of the
line, and nothing of the link that it opens with. -/
theorem without_parted {link : String} {word rest : List Char}
    {clause value : List Char → Option (List Char)}
    (hclause : ∀ cs, clause cs = (afterLinked link word false cs).bind value)
    (h : Parted link front behind) (hlink : IsLabel link.toList) (hword : IsLabel word)
    (hspells : Spells word word) (hvalue : value rest = some []) :
    without clause 0 (front ++ (behind ++ ' ' :: (word ++ ':' :: rest))) = front := by
  have hbegin : clause (behind ++ ' ' :: (word ++ ':' :: rest)) = some [] := by
    rw [hclause, h.afterLinked hlink hword hspells, Option.bind_some, hvalue]
  rw [without_append fun tail htail hsome => ?_, without_eq_nil hbegin, List.append_nil]
  rw [hclause, h.afterLinked_eq_none hlink hword hspells htail hsome]
  rfl

/-- No clause is taken off where there is no colon. -/
theorem without_eq_self_of_no_colon {link : String} {word cs : List Char}
    {clause value : List Char → Option (List Char)}
    (hclause : ∀ cs, clause cs = (afterLinked link word false cs).bind value) (h : ':' ∉ cs) :
    without clause 0 cs = cs := by
  apply without_eq_self
  intro tail htail
  rw [hclause, afterLinked_eq_none fun hmem => h (htail.mem hmem)]
  rfl

/-- What a tags clause with its link is: all up to the next double quote. -/
theorem pastTags_eq (cs : List Char) : pastTags cs = (afterLinked "with" "tags".toList false cs).bind
    fun value => (run? (· ≠ '"') value).map fun tags => value.drop tags.length := by
  unfold pastTags afterLinked
  rw [← afterWord_concat_colon]
  rfl

/-- What a category clause with its link is: all up to the end of a word. -/
theorem pastCategory_eq (cs : List Char) :
    pastCategory cs = (afterLinked "in" "category".toList false cs).bind fun value =>
      (run? isWordChar (skipBlank value)).map fun category =>
        (skipBlank value).drop category.length := rfl

theorem isLabel_with : IsLabel "with".toList := ⟨by decide, forall_mem_of_all (by decide)⟩

/-- A category clause is not taken off as a tags clause. -/
theorem without_pastTags_category (hcontent : ':' ∉ content) (hcategory : IsWord category) :
    without pastTags 0 (content ++ categoryClause (some category))
      = content ++ categoryClause (some category) := by
  have hline : content ++ categoryClause (some category)
      = (content ++ " categor".toList ++ ['y']) ++ ':' :: ' ' :: category := by
    show content ++ (" category".toList ++ _) = _
    simp
  have hfront : ':' ∉ content ++ " categor".toList ++ ['y'] := by
    simp only [List.mem_append, not_or]
    exact ⟨⟨hcontent, by decide⟩, by decide⟩
  have hrest : ':' ∉ ' ' :: category := by
    rw [List.mem_cons, not_or]
    exact ⟨by decide, not_mem_of_isWordChar hcategory.2 (by decide)⟩
  rw [hline]
  apply without_eq_self
  intro tail htail
  rw [pastTags_eq, afterLinked_eq_none_of_not_spells isLabel_with isLabel_tags hfront (fun c hc => ?_)
    (not_spells_of_last isLabel_tags.1 (by decide)) hrest htail]
  · rfl
  · rw [List.getLast?_concat] at hc
    cases hc
    decide

theorem quoted?_opening (line : List Char) :
    quoted? ("create memory".toList ++ ':' :: ' ' :: line) = quoted? line :=
  have hbefore : ∀ c ∈ "create memory".toList ++ [':', ' '], isQuote c = false :=
    forall_mem_of_all (by decide)
  quoted?_past hbefore line

/-- Content without a quoted text is the rest of its line without its
clauses. -/
theorem memoryContent_eq {line : List Char} (htrim : trim line = line) (hbreak : '\n' ∉ line)
    (hquoted : quoted? line = none) : memoryContent ("create memory".toList ++ ':' :: ' ' :: line)
      = trim (without pastCategory 0 (trim (without pastTags 0 line))) := by
  have hnone : quoted? ("create memory".toList ++ ':' :: ' ' :: line) = none := by
    rw [quoted?_opening, hquoted]
  have hvalue : seek (fun rest => (afterWord "create memory".toList rest).bind (afterColon true))
      ("create memory".toList ++ ':' :: ' ' :: line) = some (' ' :: line) :=
    seek_of_eq_some (afterLabel_of_spells rfl)
  have hskip : skipBlank (' ' :: line) = line := by
    rw [skipBlank_blank (by decide), skipBlank_eq_self ((trim_eq_self_iff line).mp htrim).1]
  have hwhole : line.takeWhile (· ≠ '\n') = line := by
    rw [List.takeWhile_eq_self_iff]
    intro c hc
    simpa using fun heq : c = '\n' => hbreak (heq ▸ hc)
  unfold memoryContent
  rw [hnone, hvalue]
  simp only [hskip, hwhole, htrim]

-- ===================================================== the three lines

/-- Content in quotes is read up to the next quote.  Where nothing but quotes
stands between them, they are the content. -/
theorem memoryContent_quoted {quote : Char} (hquote : isQuote quote = true) (text : List Char) :
    memoryContent ("create memory".toList ++ ':' :: ' ' :: quote :: (text ++ [quote]))
      = if firstStretch text = [] then quote :: (text ++ [quote]) else firstStretch text := by
  have hbetween := quoted?_between hquote hquote text
  by_cases hnil : firstStretch text = []
  · rw [if_pos hnil] at hbetween ⊢
    have hquotes : ∀ c ∈ quote :: (text ++ [quote]), isQuote c = true := by
      simpa [hquote, or_imp, forall_and] using firstStretch_eq_nil_iff.mp hnil
    have hnot {c : Char} (hc : isQuote c = false) : c ∉ quote :: (text ++ [quote]) := by
      intro hmem
      rw [hquotes c hmem] at hc
      cases hc
    have hblank : isBlank quote = false := by
      simp only [isQuote, Bool.or_eq_true, beq_iff_eq] at hquote
      rcases hquote with rfl | rfl
      · decide
      · decide
    have htrim := trim_between hblank hblank text
    rw [memoryContent_eq htrim (hnot (by decide)) hbetween,
      without_eq_self_of_no_colon pastTags_eq (hnot (by decide)), htrim,
      without_eq_self_of_no_colon pastCategory_eq (hnot (by decide)), htrim]
  · rw [if_neg hnil] at hbetween ⊢
    unfold memoryContent
    rw [quoted?_opening, hbetween]

/-- Content that can stand in a line without quotes around it. -/
structure IsUnquoted (content : List Char) : Prop where
  ne_nil : content ≠ []
  trim : trim content = content
  chars : ∀ c ∈ content, c ≠ ':' ∧ c ≠ '#' ∧ c ≠ '\n' ∧ isQuote c = false

variable {label value : List Char}

/-- Nothing is trimmed from a line that such content begins and the value of
a clause ends. -/
theorem IsUnquoted.trim_append (h : IsUnquoted content) (hne : value ≠ [])
    (hlast : ∀ c ∈ value.getLast?, isBlank c = false) :
    Text.trim (content ++ (label ++ ':' :: ' ' :: value)) = content ++ (label ++ ':' :: ' ' :: value) := by
  have hline : content ++ (label ++ ':' :: ' ' :: value)
      = content ++ (label ++ [':', ' ']) ++ value := by simp
  rw [trim_eq_self_iff, List.head?_append_of_ne_nil _ h.ne_nil, hline,
    List.getLast?_append_of_ne_nil _ hne]
  exact ⟨((trim_eq_self_iff content).mp h.trim).1, hlast⟩

/-- Such content is looked for in its line, the clause behind it included. -/
theorem IsUnquoted.memoryContent (h : IsUnquoted content) (hne : value ≠ [])
    (hlast : ∀ c ∈ value.getLast?, isBlank c = false)
    (hlabel : ∀ c ∈ label, c ≠ '\n' ∧ isQuote c = false)
    (hvalue : ∀ c ∈ value, c ≠ '\n' ∧ isQuote c = false) :
    memoryContent ("create memory".toList ++ ':' :: ' ' :: (content ++ (label ++ ':' :: ' ' :: value)))
      = Text.trim (without pastCategory 0
          (Text.trim (without pastTags 0 (content ++ (label ++ ':' :: ' ' :: value))))) := by
  have hchars : ∀ c ∈ content ++ (label ++ ':' :: ' ' :: value), c ≠ '\n' ∧ isQuote c = false := by
    intro c hc
    simp only [List.mem_append, List.mem_cons] at hc
    rcases hc with hc | hc | rfl | rfl | hc
    · exact (h.chars c hc).2.2
    · exact hlabel c hc
    · decide
    · decide
    · exact hvalue c hc
  exact memoryContent_eq (h.trim_append hne hlast) (fun hmem => (hchars '\n' hmem).1 rfl)
    (quoted?_eq_none fun c hc => (hchars c hc).2)

/-- A category clause is taken off the content before it, with its link. -/
theorem memoryContent_category (h : IsUnquoted (front ++ behind)) (hcategory : IsWord category)
    (hparted : Parted "in" front behind) :
    memoryContent (withClauses (' ' :: (front ++ behind)) (some category) []) = trim front := by
  have hvalue : (run? isWordChar (skipBlank (' ' :: category))).map
      (fun word => (skipBlank (' ' :: category)).drop word.length) = some [] := by
    have hskip : skipBlank (' ' :: category) = category := by
      obtain ⟨c, more, rfl⟩ := List.exists_cons_of_ne_nil hcategory.1
      rw [skipBlank_blank (by decide),
        skipBlank_of_not_blank (not_blank_of_isWordChar (hcategory.2 c List.mem_cons_self))]
    have hrun : run? isWordChar (category ++ []) = some category :=
      run?_append hcategory.1 hcategory.2 fun c hc => nomatch hc
    rw [List.append_nil] at hrun
    rw [hskip, hrun, Option.map_some, List.drop_length]
  have hleft : without pastCategory 0 ((front ++ behind) ++ categoryClause (some category)) = front := by
    rw [List.append_assoc]
    exact without_parted pastCategory_eq hparted isLabel_in isLabel_category rfl hvalue
  have hlast := ((trim_eq_self_iff category).mp hcategory.isTag.trim).2
  have htrim : trim ((front ++ behind) ++ categoryClause (some category))
      = (front ++ behind) ++ categoryClause (some category) := h.trim_append hcategory.1 hlast
  have hcontent : memoryContent (withClauses (' ' :: (front ++ behind)) (some category) [])
      = trim (without pastCategory 0 (trim (without pastTags 0
          ((front ++ behind) ++ categoryClause (some category))))) :=
    h.memoryContent hcategory.1 hlast (forall_mem_of_all (by decide))
      fun c hc => (hcategory.isTag.chars c hc).2.2
  rw [hcontent, without_pastTags_category hparted.colon hcategory, htrim, hleft]

/-- A tags clause is taken off the content before it, with its link. -/
theorem memoryContent_tags (h : IsUnquoted (front ++ behind)) (hne : tags ≠ [])
    (htags : ∀ tag ∈ tags, IsTag tag) (hparted : Parted "with" front behind) :
    memoryContent (withClauses (' ' :: (front ++ behind)) none tags) = trim front := by
  have hvalue : (run? (· ≠ '"') (' ' :: [',', ' '].intercalate tags)).map
      (fun value => (' ' :: [',', ' '].intercalate tags).drop value.length) = some [] := by
    have hrun : run? (· ≠ '"') ((' ' :: [',', ' '].intercalate tags) ++ [])
        = some (' ' :: [',', ' '].intercalate tags) := by
      refine run?_append (List.cons_ne_nil _ _) (fun c hc => ?_) fun c hc => nomatch hc
      have hquote : isQuote c = false := by
        rcases List.mem_cons.mp hc with rfl | hc
        · rfl
        · exact (chars_intercalate htags c hc).2.2
      simp only [isQuote, Bool.or_eq_false_iff, beq_eq_false_iff_ne] at hquote
      exact decide_eq_true hquote.1
    rw [List.append_nil] at hrun
    rw [hrun, Option.map_some, List.drop_length]
  have hclause : tagsClause tags = " tags".toList ++ ':' :: ' ' :: [',', ' '].intercalate tags := by
    obtain ⟨tag, more, rfl⟩ := List.exists_cons_of_ne_nil hne
    rfl
  have hleft : without pastTags 0 ((front ++ behind) ++ tagsClause tags) = front := by
    rw [hclause, List.append_assoc]
    exact without_parted pastTags_eq hparted isLabel_with isLabel_tags rfl hvalue
  have hcontent : memoryContent ("create memory".toList ++ ':' :: ' ' :: ((front ++ behind) ++ tagsClause tags))
      = trim (without pastCategory 0 (trim (without pastTags 0 ((front ++ behind) ++ tagsClause tags)))) := by
    rw [hclause]
    exact h.memoryContent (intercalate_ne_nil hne htags) (last_intercalate htags)
      (forall_mem_of_all (by decide)) fun c hc => (chars_intercalate htags c hc).2
  have hcolon : ':' ∉ trim front := fun hmem =>
    hparted.colon (List.mem_append_left _ (mem_of_mem_ends hmem))
  have hsame : withClauses (' ' :: (front ++ behind)) none tags
      = "create memory".toList ++ ':' :: ' ' :: ((front ++ behind) ++ tagsClause tags) := by
    unfold withClauses categoryClause
    rw [List.append_nil, List.cons_append]
  rw [hsame, hcontent, hleft, without_eq_self_of_no_colon pastCategory_eq hcolon, trim_trim]

end Daybook.Clause

namespace Daybook.Instruction

open Text

/-- What is read from a line that opens with the words of a creation. -/
theorem read_eq_createMemory {line : String} {rest : List Char}
    (h : line.toList = "create memory".toList ++ rest) :
    read line = .createMemory (String.ofList (Clause.memoryContent line.toList))
      ((Clause.category? line.toList).map String.ofList) (strings (Clause.memoryTags line.toList)) := by
  unfold read
  rw [h, readChars_createMemory]
  rfl

-- ======================================================== quoted content

/-- A line that asks for a memory with its content between two quotes. -/
def quotedLine (quote : Char) (text : String) : String :=
  "create memory: " ++ String.singleton quote ++ text ++ String.singleton quote

theorem toList_quotedLine (quote : Char) (text : String) : (quotedLine quote text).toList
    = "create memory".toList ++ ':' :: ' ' :: quote :: (text.toList ++ [quote]) := by
  have hopening : "create memory: ".toList = "create memory".toList ++ [':', ' '] := by decide
  unfold quotedLine
  simp only [String.toList_append, String.toList_singleton, hopening, List.append_assoc,
    List.cons_append, List.nil_append]

/-- Content between quotes is its first stretch without quotes of either
kind, so it is read as it was written exactly if it holds none. -/
theorem read_quotedLine {quote : Char} {text : String} (hquote : Clause.isQuote quote = true)
    (hne : text ≠ "") :
    ∃ content category tags, read (quotedLine quote text) = .createMemory content category tags
      ∧ (content = text ↔ ∀ c ∈ text.toList, Clause.isQuote c = false)
      ∧ content.toList = if Clause.firstStretch text.toList = [] then quote :: (text.toList ++ [quote])
          else Clause.firstStretch text.toList := by
  have hline := toList_quotedLine quote text
  have hread := read_eq_createMemory hline
  have hcontent := Clause.memoryContent_quoted hquote text.toList
  rw [← hline] at hcontent
  rw [hcontent] at hread
  refine ⟨_, _, _, hread, ?_, String.toList_ofList⟩
  rw [← Clause.firstStretch_eq_self_iff]
  by_cases hnil : Clause.firstStretch text.toList = []
  · -- with the quotes around it the text is longer, and without them it is empty
    rw [if_pos hnil, hnil, ← String.toList_inj, String.toList_ofList]
    constructor
    · intro hsame
      have hlength : (quote :: (text.toList ++ [quote])).length = text.toList.length :=
        congrArg List.length hsame
      simp only [List.length_cons, List.length_append, List.length_nil] at hlength
      omega
    · intro hsame
      exact absurd (String.toList_eq_nil_iff.mp hsame.symm) hne
  · rw [if_neg hnil, ← String.toList_inj, String.toList_ofList]

theorem read_quotedLine_apostrophe :
    Clause.isQuote '"' = true ∧ "it's" ≠ "" ∧ ∃ content category tags,
      read (quotedLine '"' "it's") = .createMemory content category tags
        ∧ (content = "it's" ↔ ∀ c ∈ "it's".toList, Clause.isQuote c = false)
        ∧ content.toList = if Clause.firstStretch "it's".toList = [] then '"' :: ("it's".toList ++ ['"'])
            else Clause.firstStretch "it's".toList :=
  ⟨rfl, by decide, read_quotedLine rfl (by decide)⟩

/-- An apostrophe ends content that a double quote began. -/
theorem apostrophe_ends_content :
    '"' ∉ "it's".toList ∧ read (quotedLine '"' "it's") = .createMemory "it" none [] := by
  constructor
  · decide
  · decide +kernel

-- ====================================================== unquoted content

/-- Content that needs no quotes around it. -/
structure Unquoted (content : String) : Prop where
  ne_empty : content ≠ ""
  trimmed : trimmed content = content
  chars : ∀ c ∈ content.toList, c ∉ ['"', '\'', ':', '#', '\n']

/-- What a clause with a link leaves of the content before it: all of it if
that ends in other letters, and if its last word is the link itself, what
stands before that word. -/
inductive Leaves (link : String) : String → String → Prop
  | whole {content : String} (hother : ¬link.toList <:+ content.toList.map fold) :
      Leaves link content content
  | unlinked {before last : String} (hword : ∀ c ∈ before.toList.getLast?, isBlank c = true)
      (hlink : Spells last.toList link.toList) : Leaves link (before ++ last) (trimmed before)

/-- A line with a category behind unquoted content. -/
def categorisedLine (content category : String) : String :=
  "create memory: " ++ content ++ " category: " ++ category

/-- A line with tags behind unquoted content. -/
def taggedLine (content : String) (tags : List String) : String :=
  "create memory: " ++ content ++ " tags: " ++ ", ".intercalate tags

variable {content kept category : String} {tags : List String}

theorem toList_categorisedLine : (categorisedLine content category).toList
    = Clause.withClauses (' ' :: content.toList) (some category.toList) [] := by
  have hopening : "create memory: ".toList = "create memory".toList ++ [':', ' '] := by decide
  have hlabel : " category: ".toList = " category".toList ++ [':', ' '] := by decide
  unfold categorisedLine Clause.withClauses Clause.tagsClause Clause.categoryClause
  simp only [String.toList_append, hopening, hlabel, List.append_assoc, List.cons_append,
    List.nil_append]

theorem toList_taggedLine (hne : tags ≠ []) : (taggedLine content tags).toList
    = Clause.withClauses (' ' :: content.toList) none (tags.map String.toList) := by
  have hopening : "create memory: ".toList = "create memory".toList ++ [':', ' '] := by decide
  have hlabel : " tags: ".toList = " tags".toList ++ [':', ' '] := by decide
  have hcomma : ", ".toList = [',', ' '] := by decide
  have hclause : Clause.tagsClause (tags.map String.toList)
      = " tags".toList ++ ':' :: ' ' :: [',', ' '].intercalate (tags.map String.toList) := by
    obtain ⟨tag, more, rfl⟩ := List.exists_cons_of_ne_nil hne
    rfl
  unfold taggedLine Clause.withClauses Clause.categoryClause
  simp only [String.toList_append, String.toList_intercalate, hopening, hlabel, hcomma, hclause,
    List.append_assoc, List.cons_append, List.nil_append, List.append_nil]

theorem Unquoted.isUnquoted (h : Unquoted content) : Clause.IsUnquoted content.toList where
  ne_nil := fun hnil => h.ne_empty (String.toList_eq_nil_iff.mp hnil)
  trim := by rw [← toList_trimmed, h.trimmed]
  chars := by
    intro c hc
    have hnot := h.chars c hc
    simp only [List.mem_cons, List.not_mem_nil, or_false, not_or] at hnot
    simp [Clause.isQuote, hnot]

theorem Unquoted.not_mem (h : Unquoted content) {c : Char} (hc : c ∈ [':', '#']) :
    c ∉ ' ' :: content.toList := by
  rw [List.mem_cons, not_or]
  rcases List.mem_pair.mp hc with rfl | rfl
  · exact ⟨by decide, fun hmem => (h.isUnquoted.chars _ hmem).1 rfl⟩
  · exact ⟨by decide, fun hmem => (h.isUnquoted.chars _ hmem).2.1 rfl⟩

/-- What is left of content is all that no clause begins in. -/
theorem Leaves.exists_parted {link : String} (h : Leaves link content kept)
    (hlink : Clause.IsLabel link.toList) (hcontent : Unquoted content) :
    ∃ front behind, content.toList = front ++ behind ∧ Clause.Parted link front behind
      ∧ trim front = kept.toList := by
  have htrim := hcontent.isUnquoted.trim
  have hcolon : ':' ∉ content.toList := fun hmem => (hcontent.isUnquoted.chars ':' hmem).1 rfl
  cases h with
  | whole hother =>
      exact ⟨content.toList, [], (List.append_nil _).symm,
        Clause.parted_of_not_suffix hcolon ((trim_eq_self_iff _).mp htrim).2 hother, htrim⟩
  | @unlinked before last hword hspells =>
      rw [String.toList_append] at htrim hcolon
      have hskip : skipBlank before.toList = before.toList := by
        apply skipBlank_eq_self
        intro c hc
        exact ((trim_eq_self_iff _).mp htrim).1 c (by rw [List.head?_append, hc]; rfl)
      -- the blanks between the kept text and the link go with the link
      have hparts : trim before.toList ++ before.toList.rtakeWhile isBlank = before.toList := by
        unfold trim
        rw [hskip]
        exact List.rdropWhile_append_rtakeWhile
      refine ⟨trim before.toList, before.toList.rtakeWhile isBlank ++ last.toList, ?_, ?_, ?_⟩
      · rw [String.toList_append, ← List.append_assoc, hparts]
      · refine Clause.parted_of_isLink hlink (fun hmem => ?_) (fun c hc => last_trim hc)
          ⟨_, last.toList, rfl, fun c hc => List.mem_rtakeWhile_imp hc, hspells⟩
        rw [← hparts] at hcolon
        exact hcolon (List.mem_append_left _ (List.mem_append_left _ hmem))
      · rw [toList_trimmed, trim_trim]

/-- A category behind unquoted content is taken off it. -/
theorem read_categorisedLine (hcontent : Unquoted content) (hcategory : Clause.IsWord category.toList)
    (hkept : Leaves "in" content kept) :
    read (categorisedLine content category) = .createMemory kept (some category) [] := by
  obtain ⟨front, behind, hsame, hparted, hleft⟩ := hkept.exists_parted Clause.isLabel_in hcontent
  have hline : (categorisedLine content category).toList
      = Clause.withClauses (' ' :: content.toList) (some category.toList) [] := toList_categorisedLine
  have hcolon : ':' ∉ ' ' :: content.toList := hcontent.not_mem (by decide)
  have hmark : '#' ∉ ' ' :: content.toList := hcontent.not_mem (by decide)
  have hword : ∀ word ∈ some category.toList, word ≠ [] ∧ ∀ c ∈ word, isWordChar c = true := by
    rintro word ⟨⟩
    exact hcategory
  have htags : ∀ tag ∈ ([] : List (List Char)), Clause.IsTag tag := by simp
  have hunquoted := hcontent.isUnquoted
  rw [read_eq_createMemory hline, hline, Clause.category?_withClauses hcolon htags hword, Clause.memoryTags_withClauses hcolon hmark htags
    (fun word hmem => (hword word hmem).2) (by simp)]
  rw [hsame] at hunquoted ⊢
  rw [Clause.memoryContent_category hunquoted hcategory hparted, hleft]
  simp [strings]

/-- Tags behind unquoted content are taken off it. -/
theorem read_taggedLine (hcontent : Unquoted content) (hne : tags ≠ [])
    (htags : ∀ tag ∈ tags, Clause.IsWord tag.toList) (hkept : Leaves "with" content kept) :
    read (taggedLine content tags) = .createMemory kept none tags := by
  obtain ⟨front, behind, hsame, hparted, hleft⟩ := hkept.exists_parted Clause.isLabel_with hcontent
  have hline : (taggedLine content tags).toList
      = Clause.withClauses (' ' :: content.toList) none (tags.map String.toList) := toList_taggedLine hne
  have hcolon : ':' ∉ ' ' :: content.toList := hcontent.not_mem (by decide)
  have hmark : '#' ∉ ' ' :: content.toList := hcontent.not_mem (by decide)
  have hisTag : ∀ tag ∈ tags.map String.toList, Clause.IsTag tag := by
    intro text htext
    obtain ⟨tag, hmem, rfl⟩ := List.mem_map.mp htext
    exact (htags tag hmem).isTag
  have hunquoted := hcontent.isUnquoted
  rw [read_eq_createMemory hline, hline, Clause.category?_withClauses hcolon hisTag (by simp), Clause.memoryTags_withClauses hcolon hmark
    hisTag (by simp) (by simp)]
  rw [hsame] at hunquoted ⊢
  rw [Clause.memoryContent_tags hunquoted (by simpa using hne) hisTag hparted, hleft]
  simp [strings]

/-- A clause behind unquoted content leaves the rest of the content as it was
written, whichever clause it is, but for the link before it. -/
theorem read_unquotedLine (hcontent : Unquoted content) :
    (∀ category kept, Clause.IsWord category.toList → Leaves "in" content kept →
      read (categorisedLine content category) = .createMemory kept (some category) [])
    ∧ ∀ tags kept, tags ≠ [] → (∀ tag ∈ tags, Clause.IsWord tag.toList) → Leaves "with" content kept →
      read (taggedLine content tags) = .createMemory kept none tags :=
  ⟨fun _ _ => read_categorisedLine hcontent, fun _ _ => read_taggedLine hcontent⟩

theorem read_unquotedLine_home :
    let content := "Came home with"
    Unquoted content ∧ Clause.IsWord "happy".toList ∧ Leaves "in" content content
      ∧ read (categorisedLine content "happy") = .createMemory content (some "happy") []
      ∧ Leaves "with" content "Came home"
      ∧ read (taggedLine content ["happy"]) = .createMemory "Came home" none ["happy"] := by
  intro content
  have hcontent : Unquoted content := ⟨by decide, by decide, forall_mem_of_all (by decide)⟩
  have hhappy : Clause.IsWord "happy".toList := ⟨by decide, forall_mem_of_all (by decide)⟩
  have hwhole : Leaves "in" content content := .whole (by decide)
  have hunlinked : Leaves "with" content "Came home" :=
    show Leaves "with" ("Came home " ++ "with") (trimmed "Came home ") from
      .unlinked (forall_mem_of_option (by decide)) rfl
  exact ⟨hcontent, hhappy, hwhole, (read_unquotedLine hcontent).1 "happy" content hhappy hwhole,
    hunlinked, (read_unquotedLine hcontent).2 ["happy"] "Came home" (by decide) (by simpa using hhappy)
      hunlinked⟩

/-- A content of which the last word is the link of the clause behind it is
not read whole. -/
theorem came_in_is_cut :
    Unquoted "Came in" ∧ Clause.IsWord "happy".toList
      ∧ read (categorisedLine "Came in" "happy") = .createMemory "Came" (some "happy") [] := by
  refine ⟨⟨by decide, by decide, forall_mem_of_all (by decide)⟩,
    ⟨by decide, forall_mem_of_all (by decide)⟩, ?_⟩
  decide +kernel

end Daybook.Instruction
