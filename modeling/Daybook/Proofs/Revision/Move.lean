/-
How the two positions of a move are typed, and what a move does to a list.

The positions stand in a line with a gap between them: the word `to` between
blanks, a comma, or blanks alone.  A position itself holds neither a blank
nor a comma, so the reader stops at the gap and nowhere before it
(`splitAtSeparator_append`), and no second gap follows.
-/
import Daybook.Proofs.Text.Pieces
import Daybook.Revision.Move

namespace Daybook

open Text

-- ============================================================= positions

/-- Whether a text without blanks and commas reads as a number. -/
structure IsPosition (text : List Char) (number : Nat) : Prop where
  reads : integer? text = some (number : Int)
  plain : ∀ c ∈ text, isBlank c = false ∧ c ≠ ','

/-- What may stand between two positions. -/
inductive IsGap : List Char → Prop
  | word {before after : List Char} (hbefore : before ≠ []) (hafter : after ≠ [])
    (hblank : ∀ c ∈ before ++ after, isBlank c = true) : IsGap (before ++ 't' :: 'o' :: after)
  | comma {before after : List Char} (hblank : ∀ c ∈ before ++ after, isBlank c = true) :
    IsGap (before ++ ',' :: after)
  | blanks {gap : List Char} (hgap : gap ≠ []) (hblank : ∀ c ∈ gap, isBlank c = true) : IsGap gap

variable {text first second gap : List Char}

/-- What separates two numbers is not empty. -/
theorem IsGap.ne_nil (h : IsGap gap) : gap ≠ [] := by
  cases h with
  | word hbefore => exact List.append_ne_nil_of_left_ne_nil hbefore _
  | comma => exact List.append_ne_nil_of_right_ne_nil _ (List.cons_ne_nil _ _)
  | blanks hgap => exact hgap

/-- Blanks in front are skipped with those behind them. -/
theorem skipBlank_append {blanks : List Char} (hblank : ∀ c ∈ blanks, isBlank c = true)
    (rest : List Char) : skipBlank (blanks ++ rest) = skipBlank rest :=
  List.dropWhile_append_of_pos hblank

/-- Where no blank stands in front, nothing is skipped. -/
theorem skipBlank_of_plain (h : ∀ c ∈ text, isBlank c = false ∧ c ≠ ',') : skipBlank text = text := by
  cases text with
  | nil => rfl
  | cons c cs => exact skipBlank_of_not_blank (h c List.mem_cons_self).1 cs

/-- A text begins with no separator unless with a blank or a comma. -/
theorem afterSeparator_of_plain {c : Char} (h : isBlank c = false ∧ c ≠ ',') (cs : List Char) :
    afterSeparator (c :: cs) = none := by
  have hblanks : ¬(c :: cs).length < (c :: cs).length := lt_irrefl _
  unfold afterSeparator
  dsimp only
  rw [skipBlank_of_not_blank h.1, if_neg hblanks, decide_eq_false hblanks, Option.or_none]
  split
  · rfl
  · next hcomma => exact absurd (List.cons.inj hcomma).1 h.2
  · rfl

theorem splitAtSeparator_cons (c : Char) (cs : List Char) :
    splitAtSeparator (c :: cs) = match afterSeparator (c :: cs) with
      | some rest => some ([], rest)
      | none => (splitAtSeparator cs).map fun (before, rest) => (c :: before, rest) := (rfl)

/-- Without a blank and a comma there is no separator. -/
theorem splitAtSeparator_of_plain (h : ∀ c ∈ text, isBlank c = false ∧ c ≠ ',') :
    splitAtSeparator text = none := by
  induction text with
  | nil => rfl
  | cons c cs ih =>
      rw [splitAtSeparator_cons, afterSeparator_of_plain (h c List.mem_cons_self) cs,
        ih fun other hmem => h other (List.mem_cons_of_mem c hmem)]
      rfl

/-- Blanks in front make a text longer. -/
theorem length_lt_of_blanks {blanks : List Char} (hblanks : blanks ≠ []) (rest : List Char) :
    rest.length < (blanks ++ rest).length := by
  rw [List.length_append]
  exact Nat.lt_add_of_pos_left (List.length_pos_iff.mpr hblanks)

/-- A comma separates, whatever blanks are around it. -/
theorem afterSeparator_comma {cs more : List Char} (hskip : skipBlank cs = ',' :: more) :
    afterSeparator cs = some (skipBlank more) := by
  unfold afterSeparator
  dsimp only
  rw [hskip]
  rfl

/-- The word `to` separates if blanks are around it. -/
theorem afterSeparator_word {cs more : List Char} {c : Char} (hskip : skipBlank cs = 't' :: 'o' :: c :: more)
    (hlength : ('t' :: 'o' :: c :: more).length < cs.length) (hc : isBlank c = true) :
    afterSeparator cs = some (skipBlank more) := by
  unfold afterSeparator
  dsimp only
  rw [hskip, decide_eq_true hlength]
  show (if (true && isBlank c) = true then some (skipBlank more) else none).or _ = _
  rw [hc]
  rfl

/-- Behind a gap the second position begins. -/
theorem afterSeparator_gap (hgap : IsGap gap) (hsecond : ∀ c ∈ second, isBlank c = false ∧ c ≠ ',') :
    afterSeparator (gap ++ second) = some second := by
  have hplain := skipBlank_of_plain hsecond
  cases hgap with
  | @word before after hbefore hafter hblank =>
      obtain ⟨c, after, rfl⟩ := List.exists_cons_of_ne_nil hafter
      have hskip : skipBlank (before ++ 't' :: 'o' :: c :: (after ++ second))
          = 't' :: 'o' :: c :: (after ++ second) := by
        rw [skipBlank_append fun c hmem => hblank c (List.mem_append_left _ hmem)]
        exact skipBlank_of_not_blank (by decide) _
      rw [List.append_assoc]
      refine (afterSeparator_word hskip (length_lt_of_blanks hbefore _)
        (hblank c (List.mem_append_right _ List.mem_cons_self))).trans ?_
      rw [skipBlank_append fun c hmem =>
        hblank c (List.mem_append_right _ (List.mem_cons_of_mem _ hmem)), hplain]
  | @comma before after hblank =>
      have hskip : skipBlank (before ++ ',' :: (after ++ second)) = ',' :: (after ++ second) := by
        rw [skipBlank_append fun c hmem => hblank c (List.mem_append_left _ hmem)]
        exact skipBlank_of_not_blank (by decide) _
      rw [List.append_assoc]
      refine (afterSeparator_comma hskip).trans ?_
      rw [skipBlank_append fun c hmem => hblank c (List.mem_append_right _ hmem), hplain]
  | blanks hne hblank =>
      have hskip : skipBlank (gap ++ second) = second := by
        rw [skipBlank_append hblank, hplain]
      unfold afterSeparator
      dsimp only
      rw [hskip, if_pos (length_lt_of_blanks hne second)]
      split
      · next c more =>
          -- the second position has no blank behind `to`
          have hc : isBlank c = false := (hsecond c (by simp)).1
          rw [hc, Bool.and_false]
          rfl
      · next more => exact absurd rfl (hsecond ',' List.mem_cons_self).2
      · rfl

/-- The reader stops at the gap. -/
theorem splitAtSeparator_append (hfirst : ∀ c ∈ first, isBlank c = false ∧ c ≠ ',') (hgap : IsGap gap)
    (hsecond : ∀ c ∈ second, isBlank c = false ∧ c ≠ ',') :
    splitAtSeparator (first ++ gap ++ second) = some (first, second) := by
  induction first with
  | nil =>
      have hafter := afterSeparator_gap hgap hsecond
      obtain ⟨c, cs, hcons⟩ := List.exists_cons_of_ne_nil
        (List.append_ne_nil_of_left_ne_nil hgap.ne_nil second)
      rw [hcons] at hafter
      rw [List.nil_append, hcons, splitAtSeparator_cons, hafter]
  | cons c cs ih =>
      rw [List.cons_append, List.cons_append, splitAtSeparator_cons,
        afterSeparator_of_plain (hfirst c List.mem_cons_self),
        ih fun other hmem => hfirst other (List.mem_cons_of_mem c hmem)]
      rfl

/-- Whether a text names two positions. -/
def IsMove (text : List Char) (source target : Nat) : Prop :=
  ∃ first gap second, text = first ++ gap ++ second
    ∧ IsPosition first source ∧ IsGap gap ∧ IsPosition second target

/-- Two numbers and a gap between them are read as those numbers. -/
theorem positions?_of_isMove {source target : Nat} (h : IsMove (trim text) source target) :
    positions? text = some ((source : Int), (target : Int)) := by
  obtain ⟨first, gap, second, htext, hfirst, hgap, hsecond⟩ := h
  have hcut : splitAtSeparator (trim text) = some (first, second) := by
    rw [htext]
    exact splitAtSeparator_append hfirst.plain hgap hsecond.plain
  unfold positions?
  rw [hcut, Option.bind_eq_bind, Option.bind_some]
  dsimp only
  rw [splitAtSeparator_of_plain hsecond.plain]
  dsimp only
  rw [hfirst.reads, hsecond.reads]
  rfl

-- ================================================================ moves

/-- The list with the element at `source` taken out and put in again behind
the first `target` others. -/
def moved {α : Type} (source target : Nat) (xs : List α) : List α :=
  let others := xs.take source ++ xs.drop (source + 1)
  others.take target ++ xs[source]?.toList ++ others.drop target

/-- Inserting splits the list at the place. -/
theorem insertIdx_eq {α : Type} (x : α) {index : Nat} {xs : List α} (h : index ≤ xs.length) :
    xs.insertIdx index x = xs.take index ++ [x] ++ xs.drop index := by
  induction xs generalizing index with
  | nil =>
      obtain rfl : index = 0 := Nat.le_zero.mp h
      rfl
  | cons y ys ih =>
      cases index with
      | zero => rfl
      | succ index =>
          rw [List.insertIdx_succ_cons, ih (Nat.le_of_succ_le_succ h)]
          rfl

/-- Taking an element out and inserting it again moves it. -/
theorem moveElement_eq {α : Type} {source target : Nat} {xs : List α} (hsource : source < xs.length)
    (htarget : target < xs.length) : moveElement source target xs = moved source target xs := by
  have hothers : target ≤ (xs.take source ++ xs.drop (source + 1)).length := by
    rw [← List.eraseIdx_eq_take_drop_succ, List.length_eraseIdx_of_lt hsource]
    exact Nat.le_sub_one_of_lt htarget
  unfold moveElement moved
  rw [List.getElem?_eq_getElem hsource, List.eraseIdx_eq_take_drop_succ]
  exact insertIdx_eq _ hothers

/-- Moving brings in no new element. -/
theorem mem_of_mem_moved {α : Type} {source target : Nat} {xs : List α} {x : α}
    (h : x ∈ moved source target xs) : x ∈ xs := by
  have hothers : ∀ y ∈ xs.take source ++ xs.drop (source + 1), y ∈ xs := fun y hy =>
    (List.mem_append.mp hy).elim List.mem_of_mem_take List.mem_of_mem_drop
  unfold moved at h
  dsimp only at h
  rw [List.mem_append, List.mem_append, Option.mem_toList] at h
  obtain (htake | hsource) | hdrop := h
  · exact hothers x (List.mem_of_mem_take htake)
  · exact List.mem_of_getElem? hsource
  · exact hothers x (List.mem_of_mem_drop hdrop)

end Daybook
