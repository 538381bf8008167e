/-
Numbers that are written in digits, read again.

A number is written in ASCII digits without a sign, and each of them has the
value that it is written for in the table of all scripts.  So the number is
read back (`integer?_toDigits`) if it `IsShort` enough to be read at all.
-/
import Daybook.Text.Digit

namespace Daybook.Text

variable {c : Char} {cs : List Char}

-- =============================================================== digits

theorem toNat_of_isDigit (h : c.isDigit = true) : 48 ≤ c.toNat ∧ c.toNat ≤ 57 := by
  simpa [Char.isDigit, UInt32.le_iff_toNat_le] using h

theorem digitValue?_of_isDigit (h : c.isDigit = true) : digitValue? c = some (c.toNat - '0'.toNat) := by
  have hrange := toNat_of_isDigit h
  unfold digitValue?
  dsimp only
  rw [if_pos (by omega), if_pos hrange]
  rfl

/-- A digit is no blank, no comma and no sign. -/
theorem plain_of_isDigit (h : c.isDigit = true) :
    isBlank c = false ∧ c ≠ ',' ∧ c ≠ '_' ∧ c ≠ '-' ∧ c ≠ '+' := by
  have hrange := toNat_of_isDigit h
  have hother : ∀ d : Char, d.toNat < 48 ∨ 57 < d.toNat → c ≠ d := by
    rintro d hd rfl
    omega
  refine ⟨?_, hother _ (by decide), hother _ (by decide), hother _ (by decide), hother _ (by decide)⟩
  rw [Bool.eq_false_iff]
  intro hblank
  simp only [isBlank, Bool.or_eq_true, Bool.and_eq_true, decide_eq_true_eq, beq_iff_eq] at hblank
  omega

/-- The digits of every script have values below ten. -/
theorem lt_ten_of_digitValue? {value : Nat} (h : digitValue? c = some value) : value < 10 := by
  unfold digitValue? at h
  dsimp only at h
  split at h
  · split at h
    · cases h
      omega
    · cases h
  · obtain ⟨first, hfind, rfl⟩ := Option.map_eq_some_iff.mp h
    have hrange := List.find?_some hfind
    simp only [Bool.and_eq_true, decide_eq_true_eq] at hrange
    omega

theorem digitValue?_digitChar {digit : Nat} (h : digit < 10) :
    digitValue? (Nat.digitChar digit) = some digit := by
  have hall : ∀ digit < 10, digitValue? (Nat.digitChar digit) = some digit := by decide
  exact hall digit h

/-- No digit is a blank. -/
theorem not_blank_of_isDigit (h : isDigit c = true) : isBlank c = false := by
  obtain ⟨value, hvalue⟩ := Option.isSome_iff_exists.mp h
  -- no script has its digits around a blank
  have hzeros : ∀ first ∈ digitZeros, (first + 10 ≤ 0x85 ∨ 0xA0 < first)
      ∧ (first + 10 ≤ 0x1680 ∨ 0x1680 < first) ∧ (first + 10 ≤ 0x2000 ∨ 0x3000 < first) := by decide
  rw [Bool.eq_false_iff]
  intro hblank
  simp only [isBlank, Bool.or_eq_true, Bool.and_eq_true, decide_eq_true_eq, beq_iff_eq] at hblank
  unfold digitValue? at hvalue
  dsimp only at hvalue
  split at hvalue
  · split at hvalue
    · omega
    · cases hvalue
  · obtain ⟨first, hfind, -⟩ := Option.map_eq_some_iff.mp hvalue
    have hrange := List.find?_some hfind
    simp only [Bool.and_eq_true, decide_eq_true_eq] at hrange
    have hfirst := hzeros first (List.mem_of_find?_eq_some hfind)
    omega

-- ======================================================== whole numbers

/-- Digits without underscores have the value of the number that they
spell. -/
theorem groupedDigits?_of_isDigit (hne : cs ≠ []) (h : ∀ c ∈ cs, c.isDigit = true) (acc : Nat) :
    groupedDigits? acc cs = some (Nat.ofDigitChars 10 cs acc) := by
  induction cs generalizing acc with
  | nil => exact absurd rfl hne
  | cons c cs ih =>
      have hvalue := digitValue?_of_isDigit (h c List.mem_cons_self)
      cases cs with
      | nil =>
          rw [groupedDigits?, hvalue, Nat.ofDigitChars_cons, Nat.mul_comm]
          rfl
      | cons d cs =>
          have hd : d ≠ '_' :=
            (plain_of_isDigit (h d (List.mem_cons_of_mem c List.mem_cons_self))).2.2.1
          have hmore := ih (List.cons_ne_nil d cs) fun e he => h e (List.mem_cons_of_mem c he)
          have hstep : groupedDigits? acc (c :: d :: cs)
              = groupedDigits? (acc * 10 + (c.toNat - '0'.toNat)) (d :: cs) := by
            rw [groupedDigits?, hvalue]
            · rintro ⟨⟩
            · rintro more ⟨⟩
              exact hd rfl
          have hvalue : Nat.ofDigitChars 10 (c :: d :: cs) acc
              = Nat.ofDigitChars 10 (d :: cs) (acc * 10 + (c.toNat - '0'.toNat)) := by
            rw [Nat.mul_comm acc 10]
            exact Nat.ofDigitChars_cons
          rw [hstep, hmore, hvalue]

/-- Digits are read as the number that they spell, if they are not too
many. -/
theorem integer?_of_isDigit (hne : cs ≠ []) (h : ∀ c ∈ cs, c.isDigit = true)
    (hlength : cs.length ≤ maxDigits) : integer? cs = some (Nat.ofDigitChars 10 cs 0 : Int) := by
  have hmargin : ∀ c ∈ cs, isNumberMargin c = false := fun c hc => by
    unfold isNumberMargin
    rw [(plain_of_isDigit (h c hc)).1]
    rfl
  have hstay : ∀ ds : List Char, (∀ c ∈ ds, isNumberMargin c = false) →
      ds.dropWhile isNumberMargin = ds := by
    intro ds hds
    cases ds with
    | nil => rfl
    | cons c ds => exact List.dropWhile_cons_of_neg (Bool.eq_false_iff.mp (hds c List.mem_cons_self))
  have hcount : (cs.filter isDigit).length ≤ maxDigits := Nat.le_trans (List.length_filter_le _ _) hlength
  have hnatural : natural? cs = some (Nat.ofDigitChars 10 cs 0) := by
    unfold natural?
    rw [if_pos hcount, groupedDigits?_of_isDigit hne h]
  unfold integer?
  dsimp only
  rw [hstay cs hmargin, hstay cs.reverse fun c hc => hmargin c (List.mem_reverse.mp hc),
    List.reverse_reverse]
  split
  · next ds => exact absurd rfl (plain_of_isDigit (h '-' List.mem_cons_self)).2.2.2.1
  · next ds => exact absurd rfl (plain_of_isDigit (h '+' List.mem_cons_self)).2.2.2.2
  · rw [hnatural]
    rfl

theorem isDigit_of_mem_toDigits {n : Nat} (h : c ∈ Nat.toDigits 10 n) : c.isDigit = true :=
  Nat.isDigit_of_mem_toDigits (by decide) (by decide) h

/-- Whether a number has few enough digits to be read. -/
def IsShort (n : Nat) : Prop := (Nat.toDigits 10 n).length ≤ maxDigits

/-- A smaller number has no more digits. -/
theorem IsShort.mono {m n : Nat} (h : IsShort n) (hle : m ≤ n) : IsShort m := by
  have hpos : 0 < maxDigits := by decide
  have hlt := (Nat.length_toDigits_le_iff (by decide) hpos).mp h
  exact (Nat.length_toDigits_le_iff (by decide) hpos).mpr (Nat.lt_of_le_of_lt hle hlt)

/-- A number is read back from its digits. -/
theorem integer?_toDigits {n : Nat} (h : IsShort n) : integer? (Nat.toDigits 10 n) = some (n : Int) := by
  rw [integer?_of_isDigit Nat.toDigits_ne_nil (fun c hc => isDigit_of_mem_toDigits hc) h,
    Nat.ofDigitChars_ten_toDigits]

end Daybook.Text
