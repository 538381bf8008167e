/-
Scanning over a part of a text in which nothing can be read.

A scan takes the first place where a reading succeeds, so a line of known
shape is scanned part by part: a part is passed over if no reading begins
in it (`seek_append`), whatever follows it.  What the readings look for is
a word without regard to case, and a word stands for the letters that fold
to it (`afterWord_eq_some_iff`); no blank and no colon is among those
letters (`Spells.not_blank`, `Spells.not_mem`).
-/
import Daybook.Text.Scan

namespace Daybook.Text

-- ============================================================= scanning

/-- A scan passes over a part in which no reading begins. -/
theorem seek_append {α : Type} {read : List Char → Option α} {part rest : List Char}
    (h : ∀ tail, tail <:+ part → tail ≠ [] → read (tail ++ rest) = none) :
    seek read (part ++ rest) = seek read rest := by
  induction part with
  | nil => rfl
  | cons c part ih =>
      have hhere : read (c :: (part ++ rest)) = none :=
        h (c :: part) (List.suffix_refl _) (List.cons_ne_nil c part)
      have hbehind : seek read (part ++ rest) = seek read rest :=
        ih fun tail htail => h tail (htail.trans (List.suffix_cons c part))
      rw [List.cons_append, seek, hhere]
      exact hbehind

/-- A scan ends where a reading succeeds. -/
theorem seek_of_eq_some {α : Type} {read : List Char → Option α} {cs : List Char} {a : α}
    (h : read cs = some a) : seek read cs = some a := by
  cases cs with
  | nil => exact h
  | cons c cs => rw [seek, h]

/-- A scan of a text in which no reading succeeds. -/
theorem seek_eq_none {α : Type} {read : List Char → Option α} {cs : List Char}
    (h : ∀ tail, tail <:+ cs → read tail = none) : seek read cs = none := by
  have hpass : seek read (cs ++ []) = seek read [] :=
    seek_append fun tail htail _ => by rw [List.append_nil]; exact h tail htail
  rw [List.append_nil] at hpass
  rw [hpass]
  exact h [] (List.nil_suffix)

/-- All of a part is taken if the first place to stop at is behind it. -/
theorem takeUntil_append {stop : List Char → Bool} {part rest : List Char}
    (h : ∀ tail, tail <:+ part → tail ≠ [] → stop (tail ++ rest) = false) (hstop : stop rest = true) :
    takeUntil stop (part ++ rest) = part := by
  induction part with
  | nil =>
      cases rest with
      | nil => rfl
      | cons c rest => rw [List.nil_append, takeUntil, if_pos hstop]
  | cons c part ih =>
      have hhere : stop (c :: (part ++ rest)) = false :=
        h (c :: part) (List.suffix_refl _) (List.cons_ne_nil c part)
      have hbehind : takeUntil stop (part ++ rest) = part :=
        ih fun tail htail => h tail (htail.trans (List.suffix_cons c part))
      rw [List.cons_append, takeUntil, hhere, hbehind]
      rfl

/-- No character is taken at a place to stop at. -/
theorem not_stop_of_mem_takeUntil {stop : List Char → Bool} {cs : List Char} {c : Char}
    (h : c ∈ takeUntil stop cs) : ∃ rest, stop (c :: rest) = false := by
  induction cs with
  | nil => cases h
  | cons d cs ih =>
      unfold takeUntil at h
      split at h
      · cases h
      · next hstop =>
          rcases List.mem_cons.mp h with rfl | h
          · exact ⟨cs, Bool.eq_false_iff.mpr hstop⟩
          · exact ih h

/-- Where a scan fails, no reading succeeds. -/
theorem eq_none_of_seek {α : Type} {read : List Char → Option α} {cs tail : List Char}
    (h : seek read cs = none) (htail : tail <:+ cs) : read tail = none := by
  induction cs with
  | nil =>
      rw [List.suffix_nil.mp htail]
      exact h
  | cons c cs ih =>
      cases hread : read (c :: cs) with
      | some a =>
          rw [seek_of_eq_some hread] at h
          cases h
      | none =>
          rw [seek, hread] at h
          rcases List.suffix_cons_iff.mp htail with rfl | htail
          · exact hread
          · exact ih h htail

/-- A part is contained in a text exactly if it stands somewhere in it. -/
theorem contains_eq_true_iff {part : String} {cs : List Char} :
    contains part cs = true ↔ part.toList <:+: cs := by
  rw [List.infix_iff_prefix_suffix]
  constructor
  · intro h
    obtain ⟨found, hfound⟩ := Option.isSome_iff_exists.mp h
    obtain ⟨rest, hrest, hread⟩ := exists_suffix_of_seek hfound
    by_cases hstart : startsWith part rest = true
    · exact ⟨rest, List.isPrefixOf_iff_prefix.mp hstart, hrest⟩
    · rw [if_neg hstart] at hread
      cases hread
  · rintro ⟨rest, hpart, hrest⟩
    refine Option.isSome_iff_ne_none.mpr fun hnone => ?_
    have hread := eq_none_of_seek hnone hrest
    have hstart : startsWith part rest = true := List.isPrefixOf_iff_prefix.mpr hpart
    rw [if_pos hstart] at hread
    cases hread

/-- A run is taken whole up to a character that is not accepted. -/
theorem run?_append {accept : Char → Bool} {value rest : List Char} (hne : value ≠ [])
    (hvalue : ∀ c ∈ value, accept c = true) (hrest : ∀ c ∈ rest.head?, accept c = false) :
    run? accept (value ++ rest) = some value := by
  have hstop : rest.takeWhile accept = [] := by
    cases rest with
    | nil => rfl
    | cons c rest =>
        have hc : accept c = false := hrest c rfl
        exact List.takeWhile_cons_of_neg (by rw [hc]; exact Bool.false_ne_true)
  unfold run?
  rw [List.takeWhile_append_of_pos hvalue, hstop, List.append_nil]
  cases value with
  | nil => exact absurd rfl hne
  | cons c value => rfl

-- ============================================================== letters

/-- Lowering takes capital letters to small ones and leaves the rest. -/
theorem toLower_cases (c : Char) :
    c.toLower = c ∨ (65 ≤ c.toNat ∧ c.toNat ≤ 90) ∧ c.toLower.toNat = c.toNat + 32 := by
  unfold Char.toLower
  split
  · next h =>
      rw [ge_iff_le, UInt32.le_iff_toNat_le, UInt32.le_iff_toNat_le] at h
      have hrange : 65 ≤ c.toNat ∧ c.toNat ≤ 90 := h
      refine .inr ⟨hrange, ?_⟩
      show (c.val + 32).toNat = c.toNat + 32
      rw [UInt32.toNat_add]
      show (c.toNat + 32) % 2 ^ 32 = c.toNat + 32
      omega
  · exact .inl rfl

/-- Folding makes a small letter of a character or leaves it alone. -/
theorem fold_cases (c : Char) : fold c = c ∨ 97 ≤ (fold c).toNat ∧ (fold c).toNat ≤ 122 := by
  unfold fold
  split
  · exact .inr (by decide)
  split
  · exact .inr (by decide)
  split
  · exact .inr (by decide)
  rcases toLower_cases c with hsame | ⟨hrange, hlower⟩
  · exact .inl hsame
  · exact .inr (by omega)

/-- A character that folds to one that is no small letter is that one. -/
theorem eq_of_fold_eq {c d : Char} (h : fold c = d) (hd : d.toNat < 97 ∨ 122 < d.toNat) : c = d := by
  rcases fold_cases c with hsame | hsmall
  · rw [← hsame, h]
  · rw [h] at hsmall
    omega

/-- A blank folds to itself. -/
theorem fold_of_isBlank {c : Char} (h : isBlank c = true) : fold c = c := by
  simp only [isBlank, Bool.or_eq_true, Bool.and_eq_true, decide_eq_true_eq, beq_iff_eq] at h
  unfold fold
  rw [if_neg (by omega), if_neg (by omega), if_neg (by omega)]
  rcases toLower_cases c with hsame | ⟨hrange, -⟩
  · exact hsame
  · omega

/-- What counts as a letter or a digit here is in ASCII. -/
theorem toNat_of_isAlphanum {c : Char} (h : c.isAlphanum = true) : c.toNat < 128 := by
  have hkinds : ((c.isUpper || c.isLower) || c.isDigit) = true := h
  have hbound : c.val ≤ 'z'.val := by
    rcases Bool.or_eq_true_iff.mp hkinds with hletter | hdigit
    · rcases Bool.or_eq_true_iff.mp hletter with hupper | hlower
      · have hlast : c.val ≤ 'Z'.val := (of_decide_eq_true hupper).2
        exact UInt32.le_trans hlast (by decide)
      · exact of_decide_eq_true (Bool.and_eq_true_iff.mp hlower).2
    · have hlast : c.val ≤ '9'.val := of_decide_eq_true (Bool.and_eq_true_iff.mp hdigit).2
      exact UInt32.le_trans hlast (by decide)
  exact Nat.lt_of_le_of_lt (UInt32.le_iff_toNat_le.mp hbound) (by decide)

/-- In ASCII, lowering a text is folding it. -/
theorem lowered_eq_map_fold {cs : List Char} (h : ∀ c ∈ cs, c.toNat < 128) :
    lowered cs = cs.map fold := by
  induction cs with
  | nil => rfl
  | cons c cs ih =>
      have hc := h c List.mem_cons_self
      have hlower : lower c = [fold c] := by
        rw [lower, fold, if_neg (by omega), if_neg (by omega), if_neg (by omega), if_neg (by omega),
          if_neg (by omega)]
      show lower c ++ lowered cs = fold c :: cs.map fold
      rw [hlower, ih fun d hd => h d (List.mem_cons_of_mem c hd)]
      rfl

-- ================================================================ words

/-- Whether a text spells a word, letters compared without case. -/
def Spells (text word : List Char) : Prop := text.map fold = word

theorem Spells.length {text word : List Char} (h : Spells text word) :
    text.length = word.length := by
  rw [← h, List.length_map]

theorem Spells.ne_nil {text word : List Char} (h : Spells text word) (hword : word ≠ []) :
    text ≠ [] := by
  rintro rfl
  exact hword h.symm

/-- A word is read where it is spelled. -/
theorem afterWord_eq_some_iff {word cs rest : List Char} :
    afterWord word cs = some rest ↔ ∃ text, cs = text ++ rest ∧ Spells text word := by
  induction word generalizing cs with
  | nil =>
      constructor
      · rintro ⟨⟩
        exact ⟨[], rfl, rfl⟩
      · rintro ⟨text, rfl, hspells⟩
        rw [List.eq_nil_of_length_eq_zero hspells.length]
        rfl
  | cons w word ih =>
      constructor
      · intro h
        cases cs with
        | nil => cases h
        | cons c cs =>
            unfold afterWord at h
            split at h
            · next hfold =>
                obtain ⟨text, rfl, hspells⟩ := ih.mp h
                exact ⟨c :: text, rfl, by rw [Spells, List.map_cons, hfold, hspells]⟩
            · cases h
      · rintro ⟨text, rfl, hspells⟩
        cases text with
        | nil => cases hspells
        | cons c text =>
            obtain ⟨hfold, hrest⟩ := List.cons.inj hspells
            rw [List.cons_append, afterWord, if_pos hfold]
            exact ih.mpr ⟨text, rfl, hrest⟩

/-- A word of small letters is spelled without blanks. -/
theorem Spells.not_blank {text word : List Char} (h : Spells text word)
    (hword : ∀ c ∈ word, isBlank c = false) : ∀ c ∈ text, isBlank c = false := by
  intro c hc
  refine Bool.eq_false_iff.mpr fun hblank => ?_
  have hmem : fold c ∈ word := h ▸ List.mem_map_of_mem hc
  rw [fold_of_isBlank hblank] at hmem
  exact Bool.eq_false_iff.mp (hword c hmem) hblank

/-- A character that folds to itself only is not spelled by a word without
it. -/
theorem Spells.not_mem {text word : List Char} (h : Spells text word) {c : Char}
    (hfold : fold c = c) (hword : c ∉ word) : c ∉ text := by
  intro hmem
  exact hword (hfold ▸ h ▸ List.mem_map_of_mem hmem)

end Daybook.Text
