/-
Clauses that are written behind each other, with periods between them.

Several readings go over such a line, each for itself.  None takes what
belongs to another clause: a label that is looked for holds no blank and
stands before a colon, and a value holds no colon, so a reading begins at one
of the labels that were written, or nowhere (`LooksFor.seek_written`).  It
ends at the period behind its value, or at the end of the line.  A word that
holds none of the characters that part the line stands in it only within a
value (`not_infix_body`).
-/
import Daybook.Proofs.Instruction.Filter

namespace Daybook.Clause

open Text

-- ================================================ what a reading looks for

section LooksFor

variable {α : Type} {read : List Char → Option α} {words : List (List Char)}
  {front label rest : List Char}

/-- Whether a reading succeeds only where one of these words stands, with a
colon behind it. -/
structure LooksFor (words : List (List Char)) (read : List Char → Option α) : Prop where
  isLabel : ∀ word ∈ words, IsLabel word
  found : ∀ cs a, read cs = some a → ∃ word ∈ words, ∃ r, afterLabel word true cs = some r

/-- A colon that is found without blanks before it is found. -/
theorem afterLabel_spaced {word cs r : List Char} (h : afterLabel word false cs = some r) :
    afterLabel word true cs = some r := by
  obtain ⟨text, gap, rfl, hspells, hgap⟩ := exists_of_afterLabel h
  obtain ⟨behind, hword, hcolon⟩ := Option.bind_eq_some_iff.mp h
  unfold afterLabel
  rw [hword]
  cases behind with
  | nil => cases hcolon
  | cons c behind =>
      simp only [afterColon, Bool.false_eq_true, if_false] at hcolon
      split at hcolon
      · next heq =>
          cases hcolon
          cases heq
          rfl
      · cases hcolon

variable (h : LooksFor words read)

include h

/-- What is read before the first colon of a text spells one of the words. -/
theorem LooksFor.spells (hfront : ':' ∉ front) (hlast : ∀ c ∈ front.getLast?, isBlank c = false)
    (hread : read (front ++ ':' :: rest) ≠ none) : ∃ word ∈ words, Spells front word := by
  obtain ⟨a, ha⟩ := Option.ne_none_iff_exists'.mp hread
  obtain ⟨word, hword, r, hlabel⟩ := h.found _ a ha
  exact ⟨word, hword, spells_of_afterLabel (h.isLabel word hword) hfront hlast hlabel⟩

/-- Nothing is found without a colon. -/
theorem LooksFor.seek_eq_none {cs : List Char} (hcs : ':' ∉ cs) : seek read cs = none := by
  refine Text.seek_eq_none fun tail htail => ?_
  by_contra hsome
  obtain ⟨a, ha⟩ := Option.ne_none_iff_exists'.mp hsome
  obtain ⟨word, -, r, hlabel⟩ := h.found _ a ha
  rw [afterLabel_eq_none fun hmem => hcs (htail.mem hmem)] at hlabel
  cases hlabel

/-- A scan goes on at a label behind a blank. -/
theorem LooksFor.seek_blank (hfront : ':' ∉ front) (hlabel : IsLabel label) :
    seek read (front ++ ' ' :: (label ++ ':' :: rest)) = seek read (label ++ ':' :: rest) := by
  have hcolon : ':' ∉ label := fun hmem => (hlabel.2 ':' hmem).1 rfl
  have hline : front ++ ' ' :: (label ++ ':' :: rest) = (front ++ [' ']) ++ (label ++ ':' :: rest) := by
    simp
  rw [hline, seek_append fun tail htail hsome => ?_]
  obtain ⟨before, rfl, hbefore⟩ := (List.suffix_concat_iff.mp htail).resolve_left hsome
  by_contra hread
  rw [← List.append_assoc] at hread
  have hparted : ':' ∉ before ++ [' '] ++ label := by
    simp only [List.mem_append, not_or]
    exact ⟨⟨fun hmem => hfront (hbefore.mem hmem), by decide⟩, hcolon⟩
  obtain ⟨word, hword, hspells⟩ := h.spells hparted (fun c hc => by
    rw [List.getLast?_append_of_ne_nil _ hlabel.1] at hc
    exact (hlabel.2 c (List.mem_of_getLast? hc)).2) hread
  -- no word holds the blank
  have hblank := (h.isLabel word hword).not_blank hspells ' ' (by simp)
  exact absurd hblank (by decide)

/-- A scan goes on behind a label that ends in none of the words. -/
theorem LooksFor.seek_label (hlabel : IsLabel label) (hquiet : ∀ tail ∈ label.tails, tail.map fold ∉ words) :
    seek read (label ++ ':' :: rest) = seek read rest := by
  have hline : label ++ ':' :: rest = (label ++ [':']) ++ rest := by simp
  rw [hline, seek_append fun tail htail hsome => ?_]
  obtain ⟨before, rfl, hbefore⟩ := (List.suffix_concat_iff.mp htail).resolve_left hsome
  by_contra hread
  rw [List.append_assoc, List.singleton_append] at hread
  obtain ⟨word, hword, hspells⟩ := h.spells (fun hmem => (hlabel.2 ':' (hbefore.mem hmem)).1 rfl)
    (fun c hc => (hlabel.2 c (hbefore.mem (List.mem_of_getLast? hc))).2) hread
  have hfound : before.map fold ∈ words := by
    rw [hspells]
    exact hword
  exact hquiet before ((List.mem_tails before label).mpr hbefore) hfound

end LooksFor

-- ======================================================== written clauses

/-- A clause that is written out. -/
structure Written where
  label : String
  value : String

namespace Written

/-- The label with its colon, and the value behind a blank. -/
def text (clause : Written) : List Char := clause.label.toList ++ ':' :: ' ' :: clause.value.toList

/-- Clauses behind each other, with a period and a blank between them. -/
def body (clauses : List Written) : List Char := ['.', ' '].intercalate (clauses.map text)

/-- What stands behind a clause. -/
def following : List Written → List Char
  | [] => []
  | next :: clauses => '.' :: ' ' :: body (next :: clauses)

/-- Whether nothing in a clause but its label stands before a colon. -/
structure Sound (clause : Written) : Prop where
  label : IsLabel clause.label.toList
  value : ':' ∉ clause.value.toList

/-- Whether the label of a clause ends in none of the words. -/
def Quiet (words : List (List Char)) (clause : Written) : Prop :=
  ∀ tail ∈ clause.label.toList.tails, tail.map fold ∉ words

theorem body_cons (clause : Written) (clauses : List Written) : body (clause :: clauses)
    = clause.label.toList ++ ':' :: (' ' :: clause.value.toList ++ following clauses) := by
  cases clauses with
  | nil => simp [body, following, text]
  | cons next clauses => simp [body, following, text, List.intercalate_cons_cons]

/-- A label that is its own spelling is read at the head of its clause. -/
theorem afterLabel_body {label : String} {spaced : Bool} (hlabel : Spells label.toList label.toList)
    (value : String) (clauses : List Written) : afterLabel label.toList spaced (body (⟨label, value⟩ :: clauses))
      = some (' ' :: value.toList ++ following clauses) := by
  rw [body_cons]
  exact afterLabel_of_spells hlabel

/-- The clauses of the fields that have a value. -/
def written (fields : List (String × Option String)) : List Written :=
  fields.filterMap fun field => field.2.map fun value => ⟨field.1, value⟩

theorem written_append (fields others : List (String × Option String)) :
    written (fields ++ others) = written fields ++ written others := List.filterMap_append

/-- A written clause is that of a field. -/
theorem mem_of_mem_written {fields : List (String × Option String)} {clause : Written}
    (h : clause ∈ written fields) : (clause.label, some clause.value) ∈ fields := by
  obtain ⟨⟨label, value⟩, hmem, hclause⟩ := List.mem_filterMap.mp h
  obtain ⟨text, rfl, rfl⟩ := Option.map_eq_some_iff.mp hclause
  exact hmem

theorem label_of_mem_written {fields : List (String × Option String)} {clause : Written}
    (h : clause ∈ written fields) : clause.label ∈ fields.map Prod.fst :=
  List.mem_map_of_mem (mem_of_mem_written h)

end Written

open Written

section Scan

variable {α : Type} {read : List Char → Option α} {words : List (List Char)} {front : List Char}
  {clauses before after : List Written}

/-- A scan goes on behind the value of a clause with another label. -/
theorem LooksFor.seek_past (h : LooksFor words read) (hfront : ':' ∉ front) {clause : Written}
    (hsound : clause.Sound) (hquiet : clause.Quiet words) (clauses : List Written) :
    seek read (front ++ ' ' :: body (clause :: clauses))
      = seek read (' ' :: clause.value.toList ++ following clauses) := by
  rw [body_cons, h.seek_blank hfront hsound.label, h.seek_label hsound.label hquiet]

theorem Written.Sound.not_colon {clause : Written} (h : clause.Sound) :
    ':' ∉ ' ' :: clause.value.toList := by
  rw [List.mem_cons, not_or]
  exact ⟨by decide, h.value⟩

/-- Nothing is found in clauses with other labels. -/
theorem LooksFor.seek_body_eq_none (h : LooksFor words read) (hfront : ':' ∉ front)
    (hclauses : ∀ clause ∈ clauses, clause.Sound ∧ clause.Quiet words) :
    seek read (front ++ ' ' :: body clauses) = none := by
  induction clauses generalizing front with
  | nil =>
      refine h.seek_eq_none ?_
      rw [List.mem_append, not_or]
      exact ⟨hfront, by decide⟩
  | cons clause clauses ih =>
      obtain ⟨hsound, hquiet⟩ := hclauses clause List.mem_cons_self
      have hmore := fun next hmem => hclauses next (List.mem_cons_of_mem clause hmem)
      rw [h.seek_past hfront hsound hquiet]
      cases clauses with
      | nil =>
          rw [following, List.append_nil]
          exact h.seek_eq_none hsound.not_colon
      | cons next clauses =>
          have hperiod : ':' ∉ ' ' :: clause.value.toList ++ ['.'] := by
            rw [List.mem_append, not_or]
            exact ⟨hsound.not_colon, by decide⟩
          have hnext := ih hperiod hmore
          rwa [List.append_assoc] at hnext

/-- What is found is read at the first clause with a label that is looked
for. -/
theorem LooksFor.seek_body_eq_some (h : LooksFor words read) (hfront : ':' ∉ front)
    (hbefore : ∀ clause ∈ before, clause.Sound ∧ clause.Quiet words) {own : Written}
    (hown : own.Sound) {a : α} (hread : read (body (own :: after)) = some a) :
    seek read (front ++ ' ' :: body (before ++ own :: after)) = some a := by
  induction before generalizing front with
  | nil =>
      rw [List.nil_append, body_cons, h.seek_blank hfront hown.label, ← body_cons]
      exact seek_of_eq_some hread
  | cons clause before ih =>
      obtain ⟨hsound, hquiet⟩ := hbefore clause List.mem_cons_self
      have hperiod : ':' ∉ ' ' :: clause.value.toList ++ ['.'] := by
        rw [List.mem_append, not_or]
        exact ⟨hsound.not_colon, by decide⟩
      have hnext := ih hperiod fun next hmem => hbefore next (List.mem_cons_of_mem clause hmem)
      obtain ⟨next, more, hmore⟩ := List.exists_cons_of_ne_nil
        (List.append_ne_nil_of_right_ne_nil before (List.cons_ne_nil own after))
      rw [hmore] at hnext
      rw [List.cons_append, h.seek_past hfront hsound hquiet, hmore, following]
      rwa [List.append_assoc] at hnext

/-- A scan finds the value of the one field with a label that is looked for,
if it is there. -/
theorem LooksFor.seek_written (h : LooksFor words read) (hfront : ':' ∉ front) {label : String}
    {value : Option String} (before after : List (String × Option String))
    (hsound : ∀ clause ∈ written (before ++ (label, value) :: after), clause.Sound)
    (hquiet : ∀ other ∈ (before ++ after).map Prod.fst, ∀ tail ∈ other.toList.tails, tail.map fold ∉ words)
    (result : String → α)
    (hread : ∀ text ∈ value, read (body (⟨label, text⟩ :: written after)) = some (result text)) :
    seek read (front ++ ' ' :: body (written (before ++ (label, value) :: after))) = value.map result := by
  have hothers : ∀ clause ∈ written (before ++ after), clause.Quiet words := fun clause hmem =>
    hquiet clause.label (label_of_mem_written hmem)
  cases value with
  | none =>
      have hsplit : written (before ++ (label, none) :: after) = written (before ++ after) := by
        simp [written]
      rw [hsplit] at hsound ⊢
      exact h.seek_body_eq_none hfront fun clause hmem => ⟨hsound clause hmem, hothers clause hmem⟩
  | some text =>
      have hsplit : written (before ++ (label, some text) :: after)
          = written before ++ ⟨label, text⟩ :: written after := by
        simp [written]
      have hquietBefore : ∀ clause ∈ written before, clause.Quiet words := fun clause hmem =>
        hothers clause (by rw [written_append]; exact List.mem_append_left _ hmem)
      rw [hsplit] at hsound ⊢
      exact h.seek_body_eq_some hfront
        (fun clause hmem => ⟨hsound clause (List.mem_append_left _ hmem), hquietBefore clause hmem⟩)
        (hsound _ (List.mem_append_right _ List.mem_cons_self)) (hread text rfl)

end Scan

-- ============================================================ the readings

/-- A reading of one clause looks for its label. -/
theorem looksFor_clause {α : Type} {word : List Char} (hword : IsLabel word) (spaced : Bool)
    (read : List Char → Option α) : LooksFor [word] fun rest => (afterLabel word spaced rest).bind read where
  isLabel := fun other hmem => by rwa [List.mem_singleton.mp hmem]
  found := fun cs a hread => by
    obtain ⟨r, hlabel, -⟩ := Option.bind_eq_some_iff.mp hread
    refine ⟨word, List.mem_singleton_self word, r, ?_⟩
    cases spaced with
    | true => exact hlabel
    | false => exact afterLabel_spaced hlabel

theorem looksFor_filterTags : LooksFor (filterTagsWords.map String.toList) filterTagsHere where
  isLabel := fun word hmem => by
    simp only [filterTagsWords, List.map_cons, List.map_nil, List.mem_cons, List.not_mem_nil,
      or_false] at hmem
    rcases hmem with rfl | rfl | rfl
    · exact ⟨by decide, forall_mem_of_all (by decide)⟩
    · exact ⟨by decide, forall_mem_of_all (by decide)⟩
    · exact ⟨by decide, forall_mem_of_all (by decide)⟩
  found := fun cs a hread => by
    rw [filterTagsHere_eq] at hread
    obtain ⟨word, hmem, hvalue⟩ := List.exists_of_findSome?_eq_some hread
    obtain ⟨r, hlabel, -⟩ := Option.map_eq_some_iff.mp hvalue
    exact ⟨word.toList, List.mem_map_of_mem hmem, r, hlabel⟩

/-- The date is found behind its label. -/
theorem date?_eq (cs : List Char) :
    date? cs = (clause? "from".toList false (run? (· ≠ '.')) cs).map trim := by
  unfold date? clause?
  simp only [← afterWord_concat_colon]
  rfl

/-- The text to search for at the head of a text. -/
def searchHere (cs : List Char) : Option (List Char) :=
  ((afterLabel "containing".toList false cs).bind (run? (· ≠ '.'))).or
    ((afterLabel "search".toList false cs).bind fun value => quotedHere (skipBlank value))

theorem search?_eq (cs : List Char) : search? cs = (seek searchHere cs).map trim := by
  unfold search? searchHere
  simp only [← afterWord_concat_colon]
  rfl

theorem looksFor_search : LooksFor ["containing".toList, "search".toList] searchHere where
  isLabel := fun word hmem => by
    rcases List.mem_pair.mp hmem with rfl | rfl
    · exact ⟨by decide, forall_mem_of_all (by decide)⟩
    · exact ⟨by decide, forall_mem_of_all (by decide)⟩
  found := fun cs a hread => by
    rcases Option.or_eq_some_iff.mp hread with hvalue | ⟨-, hvalue⟩
    · obtain ⟨r, hlabel, -⟩ := Option.bind_eq_some_iff.mp hvalue
      exact ⟨_, List.mem_cons_self, r, afterLabel_spaced hlabel⟩
    · obtain ⟨r, hlabel, -⟩ := Option.bind_eq_some_iff.mp hvalue
      exact ⟨_, List.mem_cons_of_mem _ List.mem_cons_self, r, afterLabel_spaced hlabel⟩

-- ============================================================== the values

section Values

variable {value : List Char} {after : List Written}

/-- A value ends at the period behind it. -/
theorem head_following : ∀ c ∈ (following after).head?, c = '.' := by
  cases after with
  | nil => exact fun c hc => nomatch hc
  | cons next after =>
      intro c hc
      cases hc
      rfl

/-- No category clause begins before a period that stands before the colon. -/
theorem categoryAhead_of_period {spaced : Bool} {front rest : List Char} (hfront : ':' ∉ front)
    (hlast : ∀ c ∈ front.getLast?, isBlank c = false) (hperiod : '.' ∈ front) :
    categoryAhead spaced (front ++ ':' :: rest) = false := by
  refine Bool.eq_false_iff.mpr fun hahead => ?_
  obtain ⟨r, hread⟩ := Option.isSome_iff_exists.mp hahead
  obtain ⟨-, before, letters, rfl, hletters, hbefore⟩ :=
    exists_of_afterLinked isLabel_in isLabel_category hfront hlast hread
  rcases List.mem_append.mp hperiod with hperiod | hperiod
  · rcases hbefore with hblank | ⟨begin, link, c, gap, rfl, hlink, hblank⟩
    · exact absurd (hblank '.' hperiod) (by decide)
    · rcases List.mem_append.mp hperiod with hperiod | hperiod
      · rcases List.mem_append.mp hperiod with hperiod | hperiod
        · exact absurd (hblank '.' (List.mem_append_left _ hperiod)) (by decide)
        · exact hlink.not_mem (by decide) (by decide) hperiod
      · exact absurd (hblank '.' (List.mem_append_right _ hperiod)) (by decide)
  · exact hletters.not_mem (by decide) (by decide) hperiod

/-- A list of tags ends at the period behind it. -/
theorem takeUntil_following
    (hvalue : ∀ c ∈ value, c ≠ ':' ∧ c ≠ '.' ∧ c ≠ '\n' ∧ isQuote c = false)
    (hafter : ∀ clause ∈ after, clause.Sound) :
    takeUntil filterTagsEnd (value ++ following after) = value := by
  have hcolon {tail : List Char} (htail : tail <:+ value) : ':' ∉ tail := fun hmem =>
    (hvalue ':' (htail.mem hmem)).1 rfl
  apply takeUntil_append
  · intro tail htail hsome
    have hahead : categoryAhead true (tail ++ following after) = false := by
      cases after with
      | nil =>
          rw [following, List.append_nil]
          exact categoryAhead_eq_false (hcolon htail)
      | cons next after =>
          have hnext := (hafter next List.mem_cons_self).label
          have hline : tail ++ following (next :: after) = tail ++ '.' :: ' ' :: next.label.toList
              ++ ':' :: (' ' :: next.value.toList ++ following after) := by
            rw [following, body_cons]
            simp
          rw [hline]
          refine categoryAhead_of_period ?_ (fun c hc => ?_) (by simp)
          · simp only [List.mem_append, List.mem_cons, not_or]
            exact ⟨hcolon htail, by decide, by decide, fun hmem => (hnext.2 ':' hmem).1 rfl⟩
          · obtain ⟨d, label, hlabel⟩ := List.exists_cons_of_ne_nil hnext.1
            have hlast : next.label.toList.getLast? = some c := by
              rw [hlabel] at hc ⊢
              simpa using hc
            exact (hnext.2 c (List.mem_of_getLast? hlast)).2
    obtain ⟨c, more, rfl⟩ := List.exists_cons_of_ne_nil hsome
    have hc := hvalue c (htail.mem List.mem_cons_self)
    rw [List.cons_append] at hahead ⊢
    simp [filterTagsEnd, hahead, hc]
  · cases after with
    | nil => rfl
    | cons next after => simp [following, filterTagsEnd]

/-- A date or a text to search for ends at the period behind it. -/
theorem run?_following (hvalue : '.' ∉ value) :
    run? (· ≠ '.') (' ' :: value ++ following after) = some (' ' :: value) := by
  refine run?_append (List.cons_ne_nil ' ' value) (fun c hc => ?_) fun c hc => ?_
  · rw [decide_eq_true_eq]
    rintro rfl
    rcases List.mem_cons.mp hc with hblank | hmem
    · cases hblank
    · exact hvalue hmem
  · rw [head_following c hc]
    rfl

end Values

-- ======================================================== words in the line

/-- What a written line is made of. -/
theorem mem_body {clauses : List Written} {c : Char} (h : c ∈ body clauses) :
    c ∈ [':', '.', ' '] ∨ ∃ clause ∈ clauses, c ∈ clause.label.toList ∨ c ∈ clause.value.toList := by
  induction clauses with
  | nil => cases h
  | cons clause clauses ih =>
      rw [body_cons, List.mem_append, List.mem_cons, List.cons_append, List.mem_cons, List.mem_append] at h
      rcases h with h | rfl | rfl | h | h
      · exact .inr ⟨clause, List.mem_cons_self, .inl h⟩
      · exact .inl (by decide)
      · exact .inl (by decide)
      · exact .inr ⟨clause, List.mem_cons_self, .inr h⟩
      · cases clauses with
        | nil => cases h
        | cons next clauses =>
            rw [following, List.mem_cons, List.mem_cons] at h
            rcases h with rfl | rfl | h
            · exact .inl (by decide)
            · exact .inl (by decide)
            · rcases ih h with hseparator | ⟨other, hmem, hc⟩
              · exact .inl hseparator
              · exact .inr ⟨other, List.mem_cons_of_mem clause hmem, hc⟩

/-- A part that holds no colon and no period, and begins with no blank, stands
in no line of clauses unless it stands in a value, or before the colon of a
label. -/
theorem not_infix_body {part : List Char} (hpart : ':' ∉ part ∧ '.' ∉ part ∧ ∃ c ∈ part.head?, c ≠ ' ')
    {clauses : List Written} (hvalues : ∀ clause ∈ clauses, ¬part <:+: lowered clause.value.toList)
    {opening : List Char} (hopening : ¬part <:+: lowered (opening ++ [' ']))
    (hlabels : ∀ clause ∈ clauses, ¬part <:+: lowered (opening ++ ' ' :: clause.label.toList)) :
    ¬part <:+: lowered (opening ++ ' ' :: body clauses) := by
  obtain ⟨hcolon, hperiod, hhead⟩ := hpart
  have hbehind (front rest : List Char) : lowered rest <:+: lowered (front ++ rest) := by
    rw [lowered_append]
    exact (List.suffix_append _ _).isInfix
  induction clauses generalizing opening with
  | nil => exact hopening
  | cons clause clauses ih =>
      have hvalue : ¬part <:+: ' ' :: lowered clause.value.toList := fun h =>
        hvalues clause List.mem_cons_self (infix_of_blank hhead h)
      have hrest : ¬part <:+: ' ' :: lowered clause.value.toList ++ lowered (following clauses) := by
        cases clauses with
        | nil => simpa [following, lowered] using hvalue
        | cons next clauses =>
            have hmore : ¬part <:+: lowered ([] ++ ' ' :: body (next :: clauses)) :=
              ih (fun other hmem => hvalues other (List.mem_cons_of_mem clause hmem))
                (fun h => hopening (h.trans (hbehind opening [' '])))
                fun other hmem h => hlabels other (List.mem_cons_of_mem clause hmem) (h.trans (hbehind _ _))
            exact fun h => (infix_of_append_separator hperiod h).elim hvalue hmore
      have hline : lowered (opening ++ ' ' :: body (clause :: clauses))
          = lowered (opening ++ ' ' :: clause.label.toList)
            ++ ':' :: (' ' :: lowered clause.value.toList ++ lowered (following clauses)) := by
        rw [body_cons, ← List.cons_append, ← List.append_assoc, lowered_append _ (':' :: _)]
        exact congrArg (lowered (opening ++ ' ' :: clause.label.toList) ++ ':' :: ·)
          (lowered_append (' ' :: clause.value.toList) (following clauses))
      rw [hline]
      exact fun h => (infix_of_append_separator hcolon h).elim (hlabels clause List.mem_cons_self) hrest

/-- A part without commas that begins with no blank stands in a line of texts
only if it stands in one of them. -/
theorem not_infix_intercalate {part : List Char} (hpart : ',' ∉ part ∧ ∃ c ∈ part.head?, c ≠ ' ')
    {texts : List (List Char)} (h : ∀ text ∈ texts, ¬part <:+: lowered text) :
    ¬part <:+: lowered ([',', ' '].intercalate texts) := by
  obtain ⟨hcomma, hhead⟩ := hpart
  induction texts with
  | nil =>
      obtain ⟨c, hc, -⟩ := hhead
      intro hnil
      rw [List.infix_nil.mp hnil] at hc
      cases hc
  | cons first texts ih =>
      have hfirst := h first List.mem_cons_self
      cases texts with
      | nil => rwa [List.intercalate_singleton]
      | cons second texts =>
          have hmore := ih fun text hmem => h text (List.mem_cons_of_mem first hmem)
          have hline : lowered ([',', ' '].intercalate (first :: second :: texts))
              = lowered first ++ ',' :: ' ' :: lowered ([',', ' '].intercalate (second :: texts)) := by
            rw [List.intercalate_cons_cons, List.append_assoc, lowered_append]
            rfl
          rw [hline]
          exact fun hin => (infix_of_append_separator hcomma hin).elim hfirst
            fun hrest => hmore (infix_of_blank hhead hrest)

/-- A mood is named only before one of these words. -/
theorem mood?_eq_none {cs : List Char}
    (h : ∀ noun ∈ ["moments", "memories"], ¬noun.toList <:+: cs.map fold) : mood? cs = none := by
  rw [Option.eq_none_iff_forall_ne_some]
  intro mood hmood
  obtain ⟨found, hseek, -⟩ := Option.map_eq_some_iff.mp hmood
  obtain ⟨rest, hrest, hread⟩ := exists_suffix_of_seek hseek
  obtain ⟨word, -, hword⟩ := List.exists_of_findSome?_eq_some hread
  obtain ⟨tail, htail, hnoun⟩ := Option.bind_eq_some_iff.mp hword
  split at hnoun
  · next hfollows =>
      obtain ⟨noun, hmem, hnoun⟩ := List.any_eq_true.mp (Bool.and_eq_true_iff.mp hfollows).2
      obtain ⟨behind, hbehind⟩ := Option.isSome_iff_exists.mp hnoun
      obtain ⟨text, hsame, hspells⟩ := afterWord_eq_some_iff.mp hbehind
      obtain ⟨opening, rfl, -⟩ := afterWord_eq_some_iff.mp htail
      refine h noun hmem ?_
      rw [← hspells]
      have htext : text <:+: tail := ((List.prefix_append text behind).isInfix).trans
        (hsame ▸ (List.dropWhile_suffix isBlank).isInfix)
      exact (htext.trans ((List.suffix_append opening tail).trans hrest).isInfix).map fold
  · cases hnoun

end Daybook.Clause
