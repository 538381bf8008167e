/-
The link that a clause may open with.

Before its label a clause takes blanks and one more word, its link, as in
`in category: home` and `with tags: work`.  The readers ask no blank before
the link, so they find it at the end of any word as well: a clause behind a
text begins where the text is nothing, or nothing but its last letters if
these spell the link (`afterLinked_eq_some_iff`).  A scan from the left
therefore passes over all of a text that ends in other letters, and over
what stands before the link and its blanks in one that ends in the link
(`Parted`).
-/
import Daybook.Proofs.Instruction.Label

namespace Daybook.Clause

open Text

variable {link : String} {word front behind text rest : List Char} {spaced : Bool}

-- ================================================== behind the link

/-- What is passed over before a label: blanks, or the link between
blanks. -/
theorem exists_pastLink (link : String) (cs : List Char) :
    ∃ before, cs = before ++ pastLink link (skipBlank cs)
      ∧ ((∀ c ∈ before, isBlank c = true) ∨ ∃ front text c gap, before = front ++ text ++ c :: gap
        ∧ Spells text link.toList ∧ ∀ d ∈ front ++ c :: gap, isBlank d = true) := by
  have hskip (ds : List Char) : ds.takeWhile isBlank ++ skipBlank ds = ds :=
    List.takeWhile_append_dropWhile
  have hblank (ds : List Char) : ∀ c ∈ ds.takeWhile isBlank, isBlank c = true := fun c hc =>
    List.all_eq_true.mp List.all_takeWhile c hc
  have hstay : ∃ before, cs = before ++ skipBlank cs ∧ ∀ c ∈ before, isBlank c = true :=
    ⟨cs.takeWhile isBlank, (hskip cs).symm, hblank cs⟩
  unfold pastLink
  split
  · next c rest hword =>
      split
      · next hc =>
          obtain ⟨text, hsame, hspells⟩ := afterWord_eq_some_iff.mp hword
          refine ⟨cs.takeWhile isBlank ++ text ++ c :: rest.takeWhile isBlank, ?_, .inr
            ⟨_, text, c, _, rfl, hspells, ?_⟩⟩
          · rw [List.append_assoc, List.cons_append, hskip rest, List.append_assoc, ← hsame, hskip]
          · intro d hd
            rcases List.mem_append.mp hd with hd | hd
            · exact hblank cs d hd
            · rcases List.mem_cons.mp hd with rfl | hd
              · exact hc
              · exact hblank rest d hd
      · exact ⟨_, hstay.choose_spec.1, .inl hstay.choose_spec.2⟩
  · exact ⟨_, hstay.choose_spec.1, .inl hstay.choose_spec.2⟩

/-- A text that ends in no blank is what stands before the blanks. -/
theorem eq_of_append_blank {tail front gap : List Char} {c : Char}
    (hlast : ∀ d ∈ tail.getLast?, isBlank d = false) (hgap : ∀ d ∈ gap, isBlank d = true)
    (hne : gap ≠ []) (h : tail ++ [c] = front ++ gap) : tail = front := by
  obtain ⟨more, d, hconcat⟩ := (List.eq_nil_or_concat gap).resolve_left hne
  rw [List.concat_eq_append] at hconcat
  subst hconcat
  rw [← List.append_assoc] at h
  have htail : tail = front ++ more := (List.append_inj' h rfl).1
  rcases List.eq_nil_or_concat more with rfl | ⟨more, e, hconcat⟩
  · rw [htail, List.append_nil]
  · -- a second blank would end the text
    rw [List.concat_eq_append] at hconcat
    subst hconcat
    have hnot : isBlank e = false := hlast e (by
      rw [htail, ← List.append_assoc, List.getLast?_concat]
      rfl)
    have hblank : isBlank e = true :=
      hgap e (List.mem_append_left _ (List.mem_append_right _ List.mem_cons_self))
    rw [hblank] at hnot
    cases hnot

/-- What follows a label and its colon, blanks and the link before it being
allowed. -/
def afterLinked (link : String) (word : List Char) (spaced : Bool) (cs : List Char) :
    Option (List Char) :=
  afterLabel word spaced (pastLink link (skipBlank cs))

/-- No label is read behind a link where there is no colon. -/
theorem afterLinked_eq_none {cs : List Char} (h : ':' ∉ cs) :
    afterLinked link word spaced cs = none := by
  obtain ⟨before, hsame, -⟩ := exists_pastLink link cs
  exact afterLabel_eq_none fun hmem => h (hsame ▸ List.mem_append_right _ hmem)

-- ================================================ where a clause begins

/-- Whether a text is the link, blanks before it being allowed. -/
def IsLink (link : String) (text : List Char) : Prop :=
  ∃ gap letters, text = gap ++ letters ∧ (∀ c ∈ gap, isBlank c = true)
    ∧ Spells letters link.toList

/-- A label that is read before the first colon of a text ends what stands
before that colon; up to it all is passed over. -/
theorem exists_of_afterLinked {r : List Char} (hlink : IsLabel link.toList) (hword : IsLabel word)
    (hfront : ':' ∉ front) (hlast : ∀ c ∈ front.getLast?, isBlank c = false)
    (h : afterLinked link word spaced (front ++ ':' :: rest) = some r) :
    r = rest ∧ ∃ before letters, front = before ++ letters ∧ Spells letters word
      ∧ ((∀ c ∈ before, isBlank c = true) ∨ ∃ front text c gap, before = front ++ text ++ c :: gap
        ∧ Spells text link.toList ∧ ∀ d ∈ front ++ c :: gap, isBlank d = true) := by
  obtain ⟨before, hsame, hbefore⟩ := exists_pastLink link (front ++ ':' :: rest)
  obtain ⟨letters, gap, hread, hletters, hgap⟩ := exists_of_afterLabel h
  have hnoColon : ∀ {ds : List Char}, (∀ c ∈ ds, isBlank c = true) → ':' ∉ ds :=
    fun hblank hmem => absurd (hblank ':' hmem) (by decide)
  have hlabel : ':' ∉ letters ++ gap := by
    rw [List.mem_append, not_or]
    exact ⟨hword.not_colon hletters, hnoColon hgap⟩
  have hpassed : ':' ∉ before := by
    rcases hbefore with hblank | ⟨begin, text, c, more, rfl, hspells, hblank⟩
    · exact hnoColon hblank
    · have hgaps := hnoColon hblank
      simp only [List.mem_append, not_or] at hgaps ⊢
      exact ⟨⟨hgaps.1, hlink.not_colon hspells⟩, hgaps.2⟩
  have hbehind : ':' ∉ before ++ (letters ++ gap) := by
    rw [List.mem_append, not_or]
    exact ⟨hpassed, hlabel⟩
  have hsplit : front ++ ':' :: rest = before ++ (letters ++ gap) ++ ':' :: r := by
    rw [hread, ← List.append_assoc] at hsame
    exact hsame
  obtain ⟨hparted, hrest⟩ := append_separator_inj hfront hbehind hsplit
  have hspells : Spells (letters ++ gap) word := by
    unfold afterLinked at h
    rw [hread] at h
    refine spells_of_afterLabel hword hlabel (fun c hc => hlast c ?_) h
    rw [hparted, List.getLast?_append_of_ne_nil _
      (List.append_ne_nil_of_left_ne_nil (hletters.ne_nil hword.1) gap)]
    exact hc
  exact ⟨hrest.symm, before, letters ++ gap, hparted, hspells, hbefore⟩

/-- A label that is read behind a text without a colon is the one that
stands there. -/
theorem passed_of_afterLinked {r : List Char} (hlink : IsLabel link.toList) (hword : IsLabel word)
    (hcolon : ':' ∉ text)
    (h : afterLinked link word spaced (text ++ ' ' :: (word ++ ':' :: rest)) = some r) :
    r = rest ∧ ((∀ c ∈ text ++ [' '], isBlank c = true) ∨ ∃ front letters c gap,
      text ++ [' '] = front ++ letters ++ c :: gap ∧ Spells letters link.toList
        ∧ ∀ d ∈ front ++ c :: gap, isBlank d = true) := by
  have hline : text ++ ' ' :: (word ++ ':' :: rest) = (text ++ [' ']) ++ word ++ ':' :: rest := by simp
  have hfront : ':' ∉ (text ++ [' ']) ++ word := by
    simp only [List.mem_append, not_or]
    exact ⟨⟨hcolon, by decide⟩, fun hmem => (hword.2 ':' hmem).1 rfl⟩
  rw [hline] at h
  obtain ⟨hrest, before, letters, hsame, hletters, hbefore⟩ :=
    exists_of_afterLinked hlink hword hfront (fun c hc => by
      rw [List.getLast?_append_of_ne_nil _ hword.1] at hc
      exact (hword.2 c (List.mem_of_getLast? hc)).2) h
  rw [(List.append_inj' hsame hletters.length.symm).1]
  exact ⟨hrest, hbefore⟩

/-- In a text with one colon no label is read that does not stand before that
colon. -/
theorem afterLinked_eq_none_of_not_spells (hlink : IsLabel link.toList) (hword : IsLabel word)
    (hfront : ':' ∉ front) (hlast : ∀ c ∈ front.getLast?, isBlank c = false)
    (hnot : ∀ tail, tail <:+ front → ¬Spells tail word) (hrest : ':' ∉ rest) {cs : List Char}
    (hcs : cs <:+ front ++ ':' :: rest) : afterLinked link word spaced cs = none := by
  have hhere {tail : List Char} (htail : tail <:+ front) :
      afterLinked link word spaced (tail ++ ':' :: rest) = none := by
    have hend : ∀ c ∈ tail.getLast?, isBlank c = false := by
      obtain ⟨start, rfl⟩ := htail
      intro c hc
      exact hlast c (by rw [List.getLast?_append, hc]; rfl)
    rw [Option.eq_none_iff_forall_ne_some]
    intro r hread
    obtain ⟨-, before, letters, rfl, hletters, -⟩ :=
      exists_of_afterLinked hlink hword (fun hmem => hfront (htail.mem hmem)) hend hread
    exact hnot letters ((List.suffix_append before letters).trans htail) hletters
  rcases List.suffix_or_suffix_of_suffix hcs (List.suffix_append front (':' :: rest))
    with hbehind | ⟨tail, rfl⟩
  · rcases List.suffix_cons_iff.mp hbehind with rfl | hbehind
    · exact hhere List.nil_suffix
    · exact afterLinked_eq_none fun hmem => hrest (hbehind.mem hmem)
  · obtain ⟨more, hmore⟩ := hcs
    exact hhere ⟨more, List.append_cancel_right ((List.append_assoc _ _ _).trans hmore)⟩

theorem IsLabel.skipBlank_append (hword : IsLabel word) (rest : List Char) :
    skipBlank (word ++ rest) = word ++ rest := by
  obtain ⟨c, more, rfl⟩ := List.exists_cons_of_ne_nil hword.1
  exact skipBlank_of_not_blank (hword.2 c List.mem_cons_self).2 _

/-- A label is no link: no blank stands before its colon. -/
theorem pastLink_label (hlink : IsLabel link.toList) (hword : IsLabel word) (rest : List Char) :
    pastLink link (word ++ ':' :: rest) = word ++ ':' :: rest := by
  unfold pastLink
  split
  · next c more hopen =>
      refine if_neg fun hblank => ?_
      obtain ⟨letters, hsame, hletters⟩ := afterWord_eq_some_iff.mp hopen
      have hcolon : ':' ∉ letters := hlink.not_colon hletters
      rcases List.append_eq_append_iff.mp hsame with ⟨part, rfl, htail⟩ | ⟨part, hpart, htail⟩
      · cases part with
        | nil =>
            cases htail
            exact absurd hblank (by decide)
        | cons d part =>
            cases htail
            exact hcolon (List.mem_append_right _ List.mem_cons_self)
      · cases part with
        | nil =>
            cases htail
            exact absurd hblank (by decide)
        | cons d part =>
            cases htail
            have hmem : c ∈ word := hpart ▸ List.mem_append_right _ List.mem_cons_self
            rw [(hword.2 c hmem).2] at hblank
            cases hblank
  · rfl

/-- Where nothing but blanks or the link stands before it, the label is
read. -/
theorem afterLinked_of_isLink (hlink : IsLabel link.toList) (hword : IsLabel word)
    (hspells : Spells word word) (htext : text = [] ∨ IsLink link text) :
    afterLinked link word spaced (text ++ ' ' :: (word ++ ':' :: rest)) = some rest := by
  have hlabel : afterLabel word spaced (word ++ ':' :: rest) = some rest := afterLabel_of_spells hspells
  have hstart := hword.skipBlank_append (':' :: rest)
  unfold afterLinked
  rcases htext with rfl | ⟨gap, letters, rfl, hgap, hletters⟩
  · rw [List.nil_append, skipBlank_blank (by decide), hstart, pastLink_label hlink hword, hlabel]
  · have hskip : skipBlank (gap ++ letters ++ ' ' :: (word ++ ':' :: rest))
        = letters ++ ' ' :: (word ++ ':' :: rest) := by
      obtain ⟨c, more, rfl⟩ := List.exists_cons_of_ne_nil (hletters.ne_nil hlink.1)
      have hc : isBlank c = false := hlink.not_blank hletters c List.mem_cons_self
      rw [List.append_assoc]
      unfold skipBlank
      rw [List.dropWhile_append_of_pos hgap]
      exact skipBlank_of_not_blank hc _
    have hpast : pastLink link (letters ++ ' ' :: (word ++ ':' :: rest)) = word ++ ':' :: rest := by
      unfold pastLink
      rw [afterWord_eq_some_iff.mpr ⟨letters, rfl, hletters⟩]
      show (if isBlank ' ' then skipBlank (word ++ ':' :: rest) else _) = _
      rw [if_pos (by decide), hstart]
    rw [hskip, hpast, hlabel]

/-- A clause begins before a text that ends in no blank exactly if that text
is nothing or the link. -/
theorem afterLinked_eq_some_iff {r : List Char} (hlink : IsLabel link.toList) (hword : IsLabel word)
    (hspells : Spells word word) (hcolon : ':' ∉ text)
    (hlast : ∀ c ∈ text.getLast?, isBlank c = false) :
    afterLinked link word spaced (text ++ ' ' :: (word ++ ':' :: rest)) = some r
      ↔ r = rest ∧ (text = [] ∨ IsLink link text) := by
  constructor
  · intro h
    obtain ⟨hrest, hblank | ⟨gap, letters, c, more, hsame, hletters, hblank⟩⟩ :=
      passed_of_afterLinked hlink hword hcolon h
    · exact ⟨hrest, .inl (eq_of_append_blank hlast hblank
        (List.append_ne_nil_of_right_ne_nil _ (List.cons_ne_nil _ _)) rfl)⟩
    · refine ⟨hrest, .inr ⟨gap, letters, ?_, fun d hd => hblank d (List.mem_append_left _ hd),
        hletters⟩⟩
      exact eq_of_append_blank hlast (fun d hd => hblank d (List.mem_append_right _ hd))
        (List.cons_ne_nil c more) hsame
  · rintro ⟨rfl, htext⟩
    exact afterLinked_of_isLink hlink hword hspells htext

-- ========================================================= what is left

/-- A text in two parts, of which the second one is nothing or the link that
a clause behind them opens with: no clause begins further left. -/
structure Parted (link : String) (front behind : List Char) : Prop where
  linked : behind = [] ∨ IsLink link behind
  first : ∀ tail, tail <:+ front → tail ≠ [] → ¬IsLink link (tail ++ behind)
  colon : ':' ∉ front ++ behind
  last : ∀ c ∈ (front ++ behind).getLast?, isBlank c = false

/-- A text that ends in other letters is left whole. -/
theorem parted_of_not_suffix (hcolon : ':' ∉ text) (hlast : ∀ c ∈ text.getLast?, isBlank c = false)
    (h : ¬link.toList <:+ text.map fold) : Parted link text [] where
  linked := .inl rfl
  first := by
    rintro tail htail - ⟨gap, letters, hsame, -, hletters⟩
    rw [List.append_nil] at hsame
    refine h ?_
    rw [← hletters]
    exact ((hsame ▸ List.suffix_append gap letters).trans htail).map fold
  colon := by rwa [List.append_nil]
  last := by rwa [List.append_nil]

/-- A text that ends in the link is left without it and the blanks before
it. -/
theorem parted_of_isLink (hlink : IsLabel link.toList) (hcolon : ':' ∉ front)
    (hlast : ∀ c ∈ front.getLast?, isBlank c = false) (hbehind : IsLink link behind) :
    Parted link front behind := by
  have hkeep := hbehind
  obtain ⟨gap, letters, rfl, hgap, hletters⟩ := hbehind
  have hne : letters ≠ [] := hletters.ne_nil hlink.1
  refine ⟨.inr hkeep, ?_, ?_, fun c hc => ?_⟩
  · rintro tail htail hsome ⟨gap', letters', hsame, hgap', hletters'⟩
    rw [← List.append_assoc] at hsame
    obtain ⟨hblanks, -⟩ := List.append_inj' hsame (hletters.length.trans hletters'.length.symm)
    obtain ⟨more, c, hconcat⟩ := (List.eq_nil_or_concat tail).resolve_left hsome
    rw [List.concat_eq_append] at hconcat
    subst hconcat
    have hblank : isBlank c = true := hgap' c (by
      rw [← hblanks]
      exact List.mem_append_left _ (List.mem_append_right _ List.mem_cons_self))
    obtain ⟨begin, rfl⟩ := htail
    rw [hlast c (by rw [← List.append_assoc, List.getLast?_concat]; rfl)] at hblank
    cases hblank
  · simp only [List.mem_append, not_or]
    exact ⟨hcolon, fun hmem => absurd (hgap ':' hmem) (by decide), hlink.not_colon hletters⟩
  · rw [← List.append_assoc, List.getLast?_append_of_ne_nil _ hne] at hc
    exact hlink.not_blank hletters c (List.mem_of_getLast? hc)

/-- The clause behind a text begins at its second part. -/
theorem Parted.afterLinked (h : Parted link front behind) (hlink : IsLabel link.toList)
    (hword : IsLabel word) (hspells : Spells word word) :
    afterLinked link word spaced (behind ++ ' ' :: (word ++ ':' :: rest)) = some rest :=
  afterLinked_of_isLink hlink hword hspells h.linked

/-- No clause begins within the first part of a text. -/
theorem Parted.afterLinked_eq_none (h : Parted link front behind) (hlink : IsLabel link.toList)
    (hword : IsLabel word) (hspells : Spells word word) {tail : List Char} (htail : tail <:+ front)
    (hsome : tail ≠ []) :
    Clause.afterLinked link word spaced (tail ++ (behind ++ ' ' :: (word ++ ':' :: rest))) = none := by
  have hpart : tail ++ behind <:+ front ++ behind := by
    obtain ⟨begin, rfl⟩ := htail
    exact ⟨begin, (List.append_assoc _ _ _).symm⟩
  have hne : tail ++ behind ≠ [] := List.append_ne_nil_of_left_ne_nil hsome _
  have hcolon : ':' ∉ tail ++ behind := fun hmem => h.colon (hpart.mem hmem)
  have hlast : ∀ c ∈ (tail ++ behind).getLast?, isBlank c = false := by
    obtain ⟨begin, hbegin⟩ := hpart
    intro c hc
    refine h.last c ?_
    rw [← hbegin, List.getLast?_append_of_ne_nil _ hne]
    exact hc
  rw [← List.append_assoc, Option.eq_none_iff_forall_ne_some]
  intro r hread
  rcases ((afterLinked_eq_some_iff hlink hword hspells hcolon hlast).mp hread).2 with hnil | hlinked
  · exact hne hnil
  · exact h.first tail htail hsome hlinked

end Daybook.Clause
