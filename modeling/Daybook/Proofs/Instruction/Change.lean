/-
A change to a memory, written out and read again.

One word decides what a change is: a line in which `add:` stands anywhere
appends the text behind it or changes nothing, and only a line without it
replaces.  The word is looked for in the whole line, so an id that ends in its
letters and a new text that holds it are taken for it (`readChange_line`).
Between its quotes a new text is never read as such a clause, since no quote
opens within it (`seek_addedHere_eq_none`): such a change is lost.
-/
import Daybook.Proofs.Instruction.Opening
import Daybook.Proofs.Instruction.Value
import Mathlib.Data.List.Infix

namespace Daybook.Clause

open Text

variable {before front text id rest : List Char}

-- ================================================================ the id

/-- The id of a line stands behind its first number sign. -/
theorem id?_append (hbefore : '#' ∉ before) (hne : id ≠ []) (hid : ∀ c ∈ id, isIdChar c = true)
    (hrest : ∀ c ∈ rest.head?, isIdChar c = false) :
    id? (before ++ '#' :: (id ++ rest)) = some id := by
  rw [id?_past hbefore]
  exact seek_of_eq_some (run?_append hne hid hrest)

-- =========================================================== the addition

/-- What an addition reads: the word, then a quoted text behind blanks. -/
theorem addedHere_word (rest : List Char) :
    addedHere ("add".toList ++ ':' :: rest) = quotedHere (skipBlank rest) := rfl

/-- An addition begins before a colon only with its word. -/
theorem addedHere_eq_none (hfront : ':' ∉ front) (hword : front ≠ "add".toList) :
    addedHere (front ++ ':' :: rest) = none := by
  unfold addedHere
  refine if_neg fun hstart => ?_
  obtain ⟨more, hmore⟩ := List.isPrefixOf_iff_prefix.mp hstart
  have hsame : "add".toList ++ ':' :: more = front ++ ':' :: rest := hmore
  exact hword (append_separator_inj (by decide) hfront hsame).1.symm

/-- The first addition of a line is found behind its word. -/
theorem seek_addedHere (hfront : ':' ∉ front) (hword : "add".toList <:+ front) (hne : text ≠ [])
    (htext : ∀ c ∈ text, isQuote c = false) :
    seek addedHere (front ++ ':' :: ' ' :: '"' :: (text ++ ['"'])) = some text := by
  obtain ⟨before, rfl⟩ := hword
  rw [List.append_assoc, seek_append fun tail htail hsome => ?_]
  · apply seek_of_eq_some
    rw [addedHere_word, skipBlank_blank (by decide), skipBlank_of_not_blank (by decide)]
    exact quotedHere_append rfl hne htext rfl
  · rw [← List.append_assoc]
    apply addedHere_eq_none
    · rw [List.mem_append, not_or] at hfront ⊢
      exact ⟨fun hmem => hfront.1 (htail.mem hmem), hfront.2⟩
    · intro hsame
      exact hsome (List.append_left_eq_self.mp hsame)

/-- No quoted text begins in a text that only one quote ends. -/
theorem quotedHere_eq_none (htext : ∀ c ∈ text, isQuote c = false) {tail : List Char}
    (htail : tail <:+ text ++ ['"']) : quotedHere tail = none := by
  rcases List.suffix_concat_iff.mp htail with rfl | ⟨part, rfl, hpart⟩
  · rfl
  · cases part with
    | nil => rfl
    | cons c part =>
        have hc : isQuote c = false := htext c (hpart.mem List.mem_cons_self)
        rw [List.cons_append, quotedHere, if_neg (Bool.eq_false_iff.mp hc)]

/-- No addition is found in a line whose only quoted text does not stand
behind the word. -/
theorem seek_addedHere_eq_none (hfront : ':' ∉ front) (hword : ¬"add".toList <:+ front)
    (htext : ∀ c ∈ text, isQuote c = false) :
    seek addedHere (front ++ ':' :: ' ' :: '"' :: (text ++ ['"'])) = none := by
  have hline : front ++ ':' :: ' ' :: '"' :: (text ++ ['"'])
      = (front ++ [':']) ++ (' ' :: '"' :: (text ++ ['"'])) := by simp
  rw [hline, seek_append fun tail htail hsome => ?_]
  · -- behind the colon a word would stand before the last quote
    apply seek_eq_none
    intro tail htail
    rcases List.suffix_cons_iff.mp htail with rfl | htail
    · rfl
    rcases List.suffix_cons_iff.mp htail with rfl | htail
    · rfl
    · unfold addedHere
      split
      · exact quotedHere_eq_none htext
          ((List.dropWhile_suffix _).trans ((List.drop_suffix 4 tail).trans htail))
      · rfl
  · rcases List.suffix_concat_iff.mp htail with rfl | ⟨part, rfl, hpart⟩
    · exact absurd rfl hsome
    · rw [List.append_assoc, List.singleton_append]
      apply addedHere_eq_none fun hmem => hfront (hpart.mem hmem)
      rintro rfl
      exact hword hpart

/-- The word of an addition stands in a line before its first colon or in its
quoted text. -/
theorem contains_add_iff (hfront : ':' ∉ front) :
    contains "add:" (front ++ ':' :: ' ' :: '"' :: (text ++ ['"'])) = true
      ↔ "add".toList <:+ front ∨ "add:".toList <:+: text := by
  have hquoted : "add:".toList <:+: ' ' :: '"' :: (text ++ ['"']) ↔ "add:".toList <:+: text := by
    have hend : ¬"add:".toList <:+ text ++ ['"'] := by
      intro h
      rcases List.suffix_concat_iff.mp h with hnil | ⟨part, hpart, -⟩
      · exact absurd hnil (by decide)
      · have hlast := congrArg List.getLast? hpart
        rw [List.getLast?_concat] at hlast
        exact absurd hlast (by decide)
    have hblank (cs : List Char) : ¬"add:".toList <+: ' ' :: cs := by simp
    have hquote (cs : List Char) : ¬"add:".toList <+: '"' :: cs := by simp
    rw [List.infix_cons_iff, List.infix_cons_iff, List.infix_concat_iff]
    simp only [hblank, hquote, hend, false_or]
  rw [contains_eq_true_iff, ← hquoted]
  show "add".toList ++ ':' :: [] <:+: _ ↔ _
  rw [infix_append_separator (by decide) hfront]
  simp

end Daybook.Clause

namespace Daybook.Instruction

open Text

-- ============================================================ the change

/-- What a line with one quoted text behind its first colon changes. -/
theorem readChange_line {front text : List Char} (hcolon : ':' ∉ front)
    (hquotes : ∀ c ∈ front, Clause.isQuote c = false) (hne : text ≠ [])
    (htext : ∀ c ∈ text, Clause.isQuote c = false) :
    readChange (front ++ ':' :: ' ' :: '"' :: (text ++ ['"']))
      = if "add".toList <:+ front then some (.append (String.ofList text))
        else if "add:".toList <:+: text then none else some (.replace (String.ofList text)) := by
  have hcontains : contains "add:" (front ++ ':' :: ' ' :: '"' :: (text ++ ['"'])) = true
      ↔ "add".toList <:+ front ∨ "add:".toList <:+: text := Clause.contains_add_iff hcolon
  unfold readChange
  by_cases hword : "add".toList <:+ front
  · rw [if_pos (hcontains.mpr (.inl hword)), if_pos hword,
      Clause.seek_addedHere hcolon hword hne htext]
    rfl
  rw [if_neg hword]
  by_cases hmention : "add:".toList <:+: text
  · rw [if_pos (hcontains.mpr (.inr hmention)), if_pos hmention,
      Clause.seek_addedHere_eq_none hcolon hword htext]
    rfl
  · have hquoted : Clause.quoted? (front ++ ':' :: ' ' :: '"' :: (text ++ ['"'])) = some text := by
      have hbefore : ∀ c ∈ front ++ [':', ' '], Clause.isQuote c = false := by
        intro c hc
        rcases List.mem_append.mp hc with hc | hc
        · exact hquotes c hc
        · rcases List.mem_pair.mp hc with rfl | rfl
          · rfl
          · rfl
      have hline : front ++ ':' :: ' ' :: '"' :: (text ++ ['"'])
          = (front ++ [':', ' ']) ++ '"' :: (text ++ ['"']) := by simp
      rw [hline]
      exact Clause.quoted?_append hbefore rfl hne htext rfl
    rw [if_neg fun h => (hcontains.mp h).elim hword hmention, if_neg hmention, hquoted]
    rfl

-- ============================================================= the lines

/-- A line that replaces the text of a memory. -/
def replacementLine (opening id text : String) : String :=
  opening ++ " #" ++ id ++ ": \"" ++ text ++ "\""

/-- A line that adds to the text of a memory. -/
def additionLine (opening id text : String) : String :=
  opening ++ " #" ++ id ++ " add: \"" ++ text ++ "\""

/-- What an id can be. -/
def IsId (id : String) : Prop := id ≠ "" ∧ ∀ c ∈ id.toList, Clause.isIdChar c = true

/-- A text that can stand between quotes. -/
def IsQuotable (text : String) : Prop := text ≠ "" ∧ ∀ c ∈ text.toList, Clause.isQuote c = false

variable {opening id text : String} {word : List Char}

theorem not_isIdChar_of_mem {c : Char} (hc : c ∈ [':', '#', '"', '\'']) : Clause.isIdChar c = false := by
  simp only [List.mem_cons, List.not_mem_nil, or_false] at hc
  rcases hc with rfl | rfl | rfl | rfl
  · decide
  · decide
  · decide
  · decide

/-- An id holds no colon and no quote. -/
theorem IsId.plain (hid : IsId id) : ∀ c ∈ id.toList, c ≠ ':' ∧ Clause.isQuote c = false := by
  intro c hc
  have hnot : c ∉ [':', '#', '"', '\''] := by
    intro hmem
    have htrue := hid.2 c hc
    rw [not_isIdChar_of_mem hmem] at htrue
    cases htrue
  simp only [List.mem_cons, List.not_mem_nil, or_false, not_or] at hnot
  simp [Clause.isQuote, hnot]

/-- What stands in a line of an edit before its first colon: the words that
open it, the id, and perhaps one more word. -/
def heading (opening id : String) (word : List Char) : List Char :=
  (opening.toList ++ [' ']) ++ '#' :: (id.toList ++ word)

theorem plain_opening (hopening : opening ∈ ["edit memory", "update memory"]) :
    ∀ c ∈ opening.toList ++ [' '], c ≠ '#' ∧ c ≠ ':' ∧ Clause.isQuote c = false := by
  rcases List.mem_pair.mp hopening with rfl | rfl
  · exact forall_mem_of_all (by decide)
  · exact forall_mem_of_all (by decide)

theorem plain_heading (hopening : opening ∈ ["edit memory", "update memory"]) (hid : IsId id)
    (hword : word ∈ [[], " add".toList]) :
    ∀ c ∈ heading opening id word, c ≠ ':' ∧ Clause.isQuote c = false := by
  intro c hc
  rcases List.mem_append.mp hc with hc | hc
  · exact (plain_opening hopening c hc).2
  rcases List.mem_cons.mp hc with rfl | hc
  · decide
  rcases List.mem_append.mp hc with hc | hc
  · exact hid.plain c hc
  · have hadd : ∀ c ∈ " add".toList, c ≠ ':' ∧ Clause.isQuote c = false :=
      forall_mem_of_all (by decide)
    rcases List.mem_pair.mp hword with rfl | rfl
    · cases hc
    · exact hadd c hc

/-- The id of an edit is read back. -/
theorem id?_heading (hopening : opening ∈ ["edit memory", "update memory"]) (hid : IsId id)
    (hword : word ∈ [[], " add".toList]) (rest : List Char) :
    Clause.id? (heading opening id word ++ ':' :: rest) = some id.toList := by
  have hline : heading opening id word ++ ':' :: rest
      = (opening.toList ++ [' ']) ++ '#' :: (id.toList ++ (word ++ ':' :: rest)) := by
    simp [heading]
  have hmark : '#' ∉ opening.toList ++ [' '] := fun hmem => (plain_opening hopening '#' hmem).1 rfl
  have hne : id.toList ≠ [] := fun hnil => hid.1 (String.toList_eq_nil_iff.mp hnil)
  rw [hline]
  apply Clause.id?_append hmark hne hid.2
  rcases List.mem_pair.mp hword with rfl | rfl
  · rintro c ⟨⟩
    decide
  · rintro c ⟨⟩
    decide

/-- What a line with an id and a new text changes. -/
theorem readEditMemory_heading (hopening : opening ∈ ["edit memory", "update memory"])
    (hid : IsId id) (htext : IsQuotable text) (hword : word ∈ [[], " add".toList]) :
    readEditMemory (heading opening id word ++ ':' :: ' ' :: '"' :: (text.toList ++ ['"']))
      = .editMemory (some id) (if "add".toList <:+ id.toList ++ word then some (.append text)
          else if "add:".toList <:+: text.toList then none else some (.replace text)) := by
  have hplain := plain_heading hopening hid hword
  have hne : text.toList ≠ [] := fun hnil => htext.1 (String.toList_eq_nil_iff.mp hnil)
  have hmark : '#' ∉ "add".toList := by decide
  have hends : "add".toList <:+ heading opening id word ↔ "add".toList <:+ id.toList ++ word :=
    suffix_append_separator hmark
  unfold readEditMemory
  rw [id?_heading hopening hid hword, readChange_line (fun hmem => (hplain ':' hmem).1 rfl)
    (fun c hc => (hplain c hc).2) hne htext.2]
  simp only [hends, Option.map_some, String.ofList_toList]

theorem read_of_heading {line : String} {rest : List Char}
    (hopening : opening ∈ ["edit memory", "update memory"])
    (hline : line.toList = heading opening id word ++ rest) :
    read line = readEditMemory (heading opening id word ++ rest) := by
  have hsplit : heading opening id word ++ rest
      = opening.toList ++ (' ' :: '#' :: (id.toList ++ (word ++ rest))) := by simp [heading]
  unfold read
  rw [hline, hsplit]
  exact readChars_editMemory hopening _

theorem toList_replacementLine : (replacementLine opening id text).toList
    = heading opening id [] ++ ':' :: ' ' :: '"' :: (text.toList ++ ['"']) := by
  have hmark : " #".toList = [' ', '#'] := by decide
  have hcolon : ": \"".toList = [':', ' ', '"'] := by decide
  have hquote : "\"".toList = ['"'] := by decide
  unfold replacementLine heading
  simp only [String.toList_append, hmark, hcolon, hquote, List.append_assoc, List.cons_append,
    List.nil_append]

theorem toList_additionLine : (additionLine opening id text).toList
    = heading opening id " add".toList ++ ':' :: ' ' :: '"' :: (text.toList ++ ['"']) := by
  have hmark : " #".toList = [' ', '#'] := by decide
  have hcolon : " add: \"".toList = " add".toList ++ [':', ' ', '"'] := by decide
  have hquote : "\"".toList = ['"'] := by decide
  unfold additionLine heading
  simp only [String.toList_append, hmark, hcolon, hquote, List.append_assoc, List.cons_append,
    List.nil_append]

/-- An addition is read as it was written.  A replacement is, unless its id
ends in the word of an addition, which makes it one, or its text holds that
word with a colon, which loses it. -/
theorem read_editLines (hopening : opening ∈ ["edit memory", "update memory"]) (hid : IsId id)
    (htext : IsQuotable text) :
    read (additionLine opening id text) = .editMemory (some id) (some (.append text))
      ∧ read (replacementLine opening id text)
        = .editMemory (some id) (if "add".toList <:+ id.toList then some (.append text)
            else if "add:".toList <:+: text.toList then none else some (.replace text)) := by
  constructor
  · have hadd : "add".toList <:+ id.toList ++ " add".toList :=
      ⟨id.toList ++ [' '], by rw [List.append_assoc]; rfl⟩
    rw [read_of_heading hopening toList_additionLine,
      readEditMemory_heading hopening hid htext (by simp), if_pos hadd]
  · rw [read_of_heading hopening toList_replacementLine,
      readEditMemory_heading hopening hid htext (by simp), List.append_nil]

theorem read_editLines_abc :
    "update memory" ∈ ["edit memory", "update memory"] ∧ IsId "abc" ∧ IsQuotable "New content"
      ∧ read (additionLine "update memory" "abc" "New content")
        = .editMemory (some "abc") (some (.append "New content"))
      ∧ read (replacementLine "update memory" "abc" "New content")
        = .editMemory (some "abc") (some (.replace "New content")) := by
  have hid : IsId "abc" := ⟨by decide, forall_mem_of_all (by decide)⟩
  have htext : IsQuotable "New content" := ⟨by decide, forall_mem_of_all (by decide)⟩
  have hopening : "update memory" ∈ ["edit memory", "update memory"] := by decide
  obtain ⟨hadded, hreplaced⟩ := read_editLines hopening hid htext
  rw [if_neg (by decide), if_neg (by decide)] at hreplaced
  exact ⟨hopening, hid, htext, hadded, hreplaced⟩

/-- A new text that holds the word of an addition is lost, and an id that ends
in that word makes an addition of a replacement. -/
theorem replacement_is_lost :
    IsId "12" ∧ IsQuotable "Remember to add: milk"
      ∧ read (replacementLine "edit memory" "12" "Remember to add: milk") = .editMemory (some "12") none
      ∧ read (replacementLine "edit memory" "add" "Oats")
        = .editMemory (some "add") (some (.append "Oats")) := by
  refine ⟨⟨by decide, forall_mem_of_all (by decide)⟩, ⟨by decide, forall_mem_of_all (by decide)⟩, ?_⟩
  constructor
  · decide +kernel
  · decide +kernel

end Daybook.Instruction
