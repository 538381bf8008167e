/-
What the clauses of a line read as their values.

A value is a word, a text between two quotes, an id behind a number sign or a
list of tags.  Where it ends is said by characters that it cannot hold itself,
so it is read back wherever it is written out: a word ends at the first other
character, a quoted text at the next quote, and the tags of a list at their
commas (`tagList_intercalate`).  What stands before it is passed over, as long
as no value of that kind can begin there.
-/
import Daybook.Instruction.Clause
import Daybook.Proofs.Text.Pieces
import Daybook.Proofs.Text.Scan

namespace Daybook.Clause

open Text

-- ===================================================== word characters

/-- The code points of the blanks. -/
def blankPoints : List Nat :=
  [9, 10, 11, 12, 13, 28, 29, 30, 31, 32, 0x85, 0xA0, 0x1680, 0x2000, 0x2001, 0x2002, 0x2003,
    0x2004, 0x2005, 0x2006, 0x2007, 0x2008, 0x2009, 0x200A, 0x2028, 0x2029, 0x202F, 0x205F, 0x3000]

/-- No blank is a word character. -/
theorem not_blank_of_isWordChar {c : Char} (h : isWordChar c = true) : isBlank c = false := by
  refine Bool.eq_false_iff.mpr fun hblank => ?_
  have hpoint : c.toNat ∈ blankPoints := by
    simp only [isBlank, Bool.or_eq_true, Bool.and_eq_true, decide_eq_true_eq, beq_iff_eq] at hblank
    simp only [blankPoints, List.mem_cons, List.not_mem_nil, or_false]
    omega
  have hall : ∀ n ∈ blankPoints, isWordChar (Char.ofNat n) = false := by decide +kernel
  have hnot := hall c.toNat hpoint
  rw [Char.ofNat_toNat, h] at hnot
  cases hnot

theorem not_quote_of_isWordChar {c : Char} (h : isWordChar c = true) : isQuote c = false := by
  refine Bool.eq_false_iff.mpr fun hquote => ?_
  simp only [isQuote, Bool.or_eq_true, beq_iff_eq] at hquote
  rcases hquote with rfl | rfl
  · exact absurd h (by decide)
  · exact absurd h (by decide)

/-- A word holds word characters only. -/
theorem not_mem_of_isWordChar {word : List Char} (h : ∀ c ∈ word, isWordChar c = true)
    {d : Char} (hd : isWordChar d = false) : d ∉ word := by
  intro hmem
  rw [h d hmem] at hd
  cases hd

/-- Whether a text is a single word. -/
def IsWord (word : List Char) : Prop := word ≠ [] ∧ ∀ c ∈ word, isWordChar c = true

/-- A word is read behind one blank, up to a character of no word. -/
theorem word_behind_blank_append {word : List Char} (hne : word ≠ [])
    (h : ∀ c ∈ word, isWordChar c = true) (rest : List Char)
    (hrest : ∀ c ∈ rest.head?, isWordChar c = false) :
    run? isWordChar (dropQuote (skipBlank (' ' :: (word ++ rest)))) = some word := by
  have hsame : dropQuote (skipBlank (' ' :: (word ++ rest))) = word ++ rest := by
    cases word with
    | nil => exact absurd rfl hne
    | cons c word =>
        have hc : isWordChar c = true := h c List.mem_cons_self
        rw [List.cons_append, skipBlank_blank (by decide), skipBlank_of_not_blank (not_blank_of_isWordChar hc),
          dropQuote, if_neg (Bool.eq_false_iff.mp (not_quote_of_isWordChar hc))]
  rw [hsame]
  exact run?_append hne h hrest

/-- A word is read behind one blank. -/
theorem word_behind_blank {word : List Char} (hne : word ≠ [])
    (h : ∀ c ∈ word, isWordChar c = true) :
    run? isWordChar (dropQuote (skipBlank (' ' :: word))) = some word := by
  have hrun := word_behind_blank_append hne h [] fun c hc => nomatch hc
  rwa [List.append_nil] at hrun

-- ====================================================== quoted content

/-- A quoted text is looked for behind a part that holds no quote. -/
theorem quoted?_past {before : List Char} (hbefore : ∀ c ∈ before, isQuote c = false)
    (rest : List Char) : quoted? (before ++ rest) = quoted? rest := by
  unfold quoted?
  apply seek_append
  intro tail htail hsome
  obtain ⟨c, tail, rfl⟩ := List.exists_cons_of_ne_nil hsome
  have hc : isQuote c = false := hbefore c (htail.mem List.mem_cons_self)
  rw [List.cons_append, quotedHere, if_neg (Bool.eq_false_iff.mp hc)]

/-- No quoted text is found where there is no quote. -/
theorem quoted?_eq_none {cs : List Char} (h : ∀ c ∈ cs, isQuote c = false) : quoted? cs = none := by
  rw [← List.append_nil cs, quoted?_past h]
  rfl

/-- A text between two quotes at the head. -/
theorem quotedHere_append {content rest : List Char} {first last : Char}
    (hfirst : isQuote first = true) (hne : content ≠ []) (hcontent : ∀ c ∈ content, isQuote c = false)
    (hlast : isQuote last = true) :
    quotedHere (first :: (content ++ last :: rest)) = some content := by
  have hrun : run? (fun c => !isQuote c) (content ++ last :: rest) = some content :=
    run?_append hne (fun c hc => by rw [hcontent c hc]; rfl)
      fun c hc => by cases hc; rw [hlast]; rfl
  have hclosed : (content ++ last :: rest).drop content.length = last :: rest := List.drop_left
  simp only [quotedHere, hfirst, hrun, hclosed]
  rfl

/-- The first quoted text of a line. -/
theorem quoted?_append {before content rest : List Char} {first last : Char}
    (hbefore : ∀ c ∈ before, isQuote c = false) (hfirst : isQuote first = true) (hne : content ≠ [])
    (hcontent : ∀ c ∈ content, isQuote c = false) (hlast : isQuote last = true) :
    quoted? (before ++ first :: (content ++ last :: rest)) = some content := by
  rw [quoted?_past hbefore]
  exact seek_of_eq_some (quotedHere_append hfirst hne hcontent hlast)

-- ================================================================= marks

/-- The id of a line is looked for behind a part without a number sign. -/
theorem id?_past {before : List Char} (hbefore : '#' ∉ before) (rest : List Char) :
    id? (before ++ rest) = id? rest := by
  unfold id?
  apply seek_append
  intro tail htail hsome
  obtain ⟨c, tail, rfl⟩ := List.exists_cons_of_ne_nil hsome
  have hc : c ≠ '#' := by
    rintro rfl
    exact hbefore (htail.mem List.mem_cons_self)
  rw [List.cons_append]
  split
  · next heq => exact absurd (List.cons.inj heq).1 hc
  · rfl

theorem id?_eq_none {cs : List Char} (h : '#' ∉ cs) : id? cs = none := by
  rw [← List.append_nil cs, id?_past h]
  rfl

theorem hashtags_eq_nil {cs : List Char} (h : '#' ∉ cs) : hashtags cs = [] := by
  induction cs with
  | nil => rfl
  | cons c cs ih =>
      rw [List.mem_cons, not_or] at h
      rw [hashtags, if_neg (Ne.symm h.1)]
      exact ih h.2

-- ======================================================= lists of tags

theorem unquoted_of_no_quote {cs : List Char} (h : ∀ c ∈ cs, isQuote c = false) :
    unquoted cs = cs := by
  have hstay : ∀ ds : List Char, (∀ c ∈ ds, isQuote c = false) → ds.dropWhile isQuote = ds := by
    intro ds hds
    cases ds with
    | nil => rfl
    | cons c ds =>
        exact List.dropWhile_cons_of_neg (Bool.eq_false_iff.mp (hds c List.mem_cons_self))
  unfold unquoted
  rw [hstay cs h, hstay cs.reverse fun c hc => h c (List.mem_reverse.mp hc), List.reverse_reverse]

/-- What a tag is that can be written in a list of tags. -/
structure IsTag (tag : List Char) : Prop where
  ne_nil : tag ≠ []
  trim : trim tag = tag
  chars : ∀ c ∈ tag, c ≠ ',' ∧ c ≠ ':' ∧ c ≠ '\n' ∧ isQuote c = false

/-- What a tag is that is kept apart from others by a comma. -/
structure IsSendable (tag : List Char) : Prop where
  ne_nil : tag ≠ []
  trim : trim tag = tag
  chars : ∀ c ∈ tag, c ≠ ',' ∧ isQuote c = false

theorem IsTag.isSendable {tag : List Char} (h : IsTag tag) : IsSendable tag :=
  ⟨h.ne_nil, h.trim, fun c hc => ⟨(h.chars c hc).1, (h.chars c hc).2.2.2⟩⟩

variable {tags : List (List Char)}

/-- The tags of the line that joins texts are these texts, trimmed, and the
empty ones are dropped. -/
theorem tagList_joined {texts : List (List Char)} (hne : texts ≠ [])
    (h : ∀ text ∈ texts, ',' ∉ text ∧ ∀ c ∈ text, isQuote c = false) :
    tagList ([',', ' '].intercalate texts) = (texts.map trim).filter (· ≠ []) := by
  have hplain : ∀ text ∈ texts.map trim, unquoted text = text := by
    intro text hmem
    obtain ⟨whole, hwhole, rfl⟩ := List.mem_map.mp hmem
    exact unquoted_of_no_quote fun c hc => (h whole hwhole).2 c (mem_of_mem_trim hc)
  unfold tagList
  rw [cells_intercalate hne fun text hmem => (h text hmem).1, List.map_congr_left hplain, List.map_id']

/-- Tags are read back from the line that joins them. -/
theorem tagList_sendable (hne : tags ≠ []) (h : ∀ tag ∈ tags, IsSendable tag) :
    tagList ([',', ' '].intercalate tags) = tags := by
  have htrim : tags.map trim = tags := by
    rw [List.map_congr_left fun tag hmem => (h tag hmem).trim]
    exact List.map_id' tags
  rw [tagList_joined hne fun tag hmem => ⟨fun hcomma => ((h tag hmem).chars ',' hcomma).1 rfl,
    fun c hc => ((h tag hmem).chars c hc).2⟩, htrim, List.filter_eq_self]
  exact fun tag hmem => decide_eq_true (h tag hmem).ne_nil

theorem tagList_intercalate (hne : tags ≠ []) (h : ∀ tag ∈ tags, IsTag tag) :
    tagList ([',', ' '].intercalate tags) = tags :=
  tagList_sendable hne fun tag hmem => (h tag hmem).isSendable

/-- A blank before the first tag does not count. -/
theorem tagList_blank (cs : List Char) : tagList (' ' :: cs) = tagList cs := by
  unfold tagList
  rw [cells_blank]

/-- A single word is a tag. -/
theorem IsWord.isTag {word : List Char} (h : IsWord word) : IsTag word where
  ne_nil := h.1
  trim := (trim_eq_self_iff word).mpr
    ⟨fun c hc => not_blank_of_isWordChar (h.2 c (List.mem_of_mem_head? hc)),
      fun c hc => not_blank_of_isWordChar (h.2 c (List.mem_of_getLast? hc))⟩
  chars := fun c hc => by
    have hc := h.2 c hc
    refine ⟨?_, ?_, ?_, not_quote_of_isWordChar hc⟩
    · rintro rfl
      exact absurd hc (by decide)
    · rintro rfl
      exact absurd hc (by decide)
    · rintro rfl
      exact absurd hc (by decide)

/-- A line of tags holds no colon, no line break and no quote. -/
theorem chars_intercalate (h : ∀ tag ∈ tags, IsTag tag) :
    ∀ c ∈ [',', ' '].intercalate tags, c ≠ ':' ∧ c ≠ '\n' ∧ isQuote c = false := by
  intro c hc
  rcases mem_intercalate hc with rfl | rfl | ⟨tag, hmem, hc⟩
  · decide
  · decide
  · exact ((h tag hmem).chars c hc).2

theorem intercalate_ne_nil (hne : tags ≠ []) (h : ∀ tag ∈ tags, IsTag tag) :
    [',', ' '].intercalate tags ≠ [] := by
  intro hnil
  have hlist := tagList_intercalate hne h
  rw [hnil] at hlist
  exact hne hlist.symm

/-- A line of tags begins with no blank. -/
theorem head_intercalate (h : ∀ tag ∈ tags, IsTag tag) :
    ∀ c ∈ ([',', ' '].intercalate tags).head?, isBlank c = false := by
  intro c hc
  cases tags with
  | nil => cases hc
  | cons first tags =>
      have hfirst := h first List.mem_cons_self
      have hhead : (trim first).head? = some c := by
        rw [hfirst.trim]
        obtain ⟨d, more, rfl⟩ := List.exists_cons_of_ne_nil hfirst.ne_nil
        cases tags with
        | nil => exact hc
        | cons second tags => exact hc
      exact head_trim hhead

/-- The blank before a line of tags is skipped, and no quote stands behind
it. -/
theorem skipBlank_intercalate (hne : tags ≠ []) (h : ∀ tag ∈ tags, IsTag tag) (rest : List Char) :
    skipBlank (' ' :: ([',', ' '].intercalate tags ++ rest)) = [',', ' '].intercalate tags ++ rest
      ∧ dropQuote ([',', ' '].intercalate tags ++ rest) = [',', ' '].intercalate tags ++ rest := by
  obtain ⟨c, line, hline⟩ := List.exists_cons_of_ne_nil (intercalate_ne_nil hne h)
  have hblank : isBlank c = false := head_intercalate h c (by rw [hline]; rfl)
  have hquote : isQuote c = false := (chars_intercalate h c (hline ▸ List.mem_cons_self)).2.2
  rw [hline, List.cons_append]
  constructor
  · rw [skipBlank_blank (by decide), skipBlank_of_not_blank hblank]
  · rw [dropQuote, hquote, if_neg Bool.false_ne_true]

/-- A line of tags ends in no blank. -/
theorem last_sendable (h : ∀ tag ∈ tags, IsSendable tag) :
    ∀ c ∈ ([',', ' '].intercalate tags).getLast?, isBlank c = false := by
  intro c hc
  rcases List.eq_nil_or_concat tags with rfl | ⟨before, last, hconcat⟩
  · cases hc
  · rw [List.concat_eq_append] at hconcat
    have hlast := h last (by rw [hconcat]; exact List.mem_append_right _ List.mem_cons_self)
    obtain ⟨front, hline, -⟩ := intercalate_concat before last
    rw [hconcat, hline, List.getLast?_append_of_ne_nil _ hlast.ne_nil] at hc
    have hend : (trim last).getLast? = some c := by
      rw [hlast.trim]
      exact hc
    exact last_trim hend

theorem last_intercalate (h : ∀ tag ∈ tags, IsTag tag) :
    ∀ c ∈ ([',', ' '].intercalate tags).getLast?, isBlank c = false :=
  last_sendable fun tag hmem => (h tag hmem).isSendable

end Daybook.Clause
