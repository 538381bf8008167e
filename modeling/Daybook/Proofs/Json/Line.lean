/-
The text of a value makes a line of its own.

Whatever the value is, numbers of double precision and fields set twice
included, its text is printable ASCII throughout (`isPrinted_write`), so it
holds no line break, and it is not empty and has no blank at either end
(`trim_write`).  The first goes by structural induction.  For the second a
string, an array or an object has its brackets, and the text of any other
value has no blank at all.
-/
import Daybook.Proofs.Json.RoundTrip
import Daybook.Proofs.Text.Pieces

namespace Daybook.Json

open Text

-- ============================================================= strings

/-- Hexadecimal digits are printed. -/
theorem isPrinted_hexDigits (width n : Nat) : (hexDigits width n).all isPrinted = true := by
  have hdigit : ∀ n < 16, isPrinted (Nat.digitChar n) = true := by decide
  induction width generalizing n with
  | zero => rfl
  | succ width ih =>
      rw [hexDigits, List.all_append, ih, List.all_cons, hdigit (n % 16) (by omega)]
      rfl

/-- A code unit is written as a backslash, a letter and digits. -/
theorem isPrinted_escapeUnit (n : Nat) : (escapeUnit n).all isPrinted = true := by
  unfold escapeUnit
  rw [List.all_cons, List.all_cons, isPrinted_hexDigits]
  rfl

/-- Whatever a point is, what it is written as is printed. -/
theorem isPrinted_escapePoint (point : Point) : (escapePoint point).all isPrinted = true := by
  cases point with
  | lone offset => exact isPrinted_escapeUnit _
  | char c =>
      show (escapeChar c).all isPrinted = true
      obtain ⟨text, htext, hescape⟩ := escapeChar_spec c
      rw [htext]
      cases hescape with
      | letter _ hprinted _ =>
          rw [List.all_cons, List.all_cons, hprinted]
          rfl
      | bare _ _ hprinted =>
          rw [List.all_cons, hprinted]
          rfl
      | unit _ => exact isPrinted_escapeUnit _
      | pair _ =>
          rw [List.all_append, isPrinted_escapeUnit, isPrinted_escapeUnit]
          rfl

/-- The points of a string are written one by one. -/
theorem isPrinted_escapes (points : List Point) :
    (points.flatMap escapePoint).all isPrinted = true := by
  rw [List.all_flatMap, List.all_eq_true]
  exact fun point _ => isPrinted_escapePoint point

-- ============================================================= numbers

/-- Whether a character is printable ASCII and no blank. -/
def isGraphic (c : Char) : Bool := 32 < c.toNat && c.toNat < 127

theorem isPrinted_of_isGraphic {c : Char} (h : isGraphic c = true) : isPrinted c = true := by
  unfold isGraphic at h
  unfold isPrinted
  rw [Bool.and_eq_true, decide_eq_true_eq, decide_eq_true_eq] at h ⊢
  omega

theorem isBlank_of_isGraphic {c : Char} (h : isGraphic c = true) : isBlank c = false := by
  unfold isGraphic at h
  rw [Bool.and_eq_true, decide_eq_true_eq, decide_eq_true_eq] at h
  rw [Bool.eq_false_iff]
  intro hblank
  simp only [isBlank, Bool.or_eq_true, Bool.and_eq_true, decide_eq_true_eq, beq_iff_eq] at hblank
  omega

/-- The digits of a whole number are graphic. -/
theorem isGraphic_toDigits (n : Nat) : (Nat.toDigits 10 n).all isGraphic = true := by
  rw [List.all_eq_true]
  intro c hc
  have hdigit := isAsciiDigit_of_mem_toDigits hc
  unfold isAsciiDigit at hdigit
  unfold isGraphic
  rw [Bool.and_eq_true, decide_eq_true_eq, decide_eq_true_eq] at hdigit ⊢
  omega

theorem isGraphic_zeros (n : Nat) : (List.replicate n '0').all isGraphic = true := by
  rw [List.all_replicate]
  split
  · rfl
  · decide

/-- Leaving characters out keeps a text graphic. -/
theorem isGraphic_part {cs part : List Char} (h : cs.all isGraphic = true) (hpart : part ⊆ cs) :
    part.all isGraphic = true := by
  rw [List.all_eq_true] at h ⊢
  exact fun c hc => h c (hpart hc)

/-- The digits of a number without the zeros at their end are graphic. -/
theorem isGraphic_stripZeros {digits : List Char} (h : digits.all isGraphic = true) :
    (Binary64.stripZeros digits).all isGraphic = true := by
  refine isGraphic_part h fun c hc => ?_
  unfold Binary64.stripZeros at hc
  rw [List.mem_reverse] at hc
  exact List.mem_reverse.mp ((List.dropWhile_sublist _).subset hc)

/-- A number is laid out with a point, zeros and an exponent, all of them
graphic. -/
theorem isGraphic_layOut {digits : List Char} (h : digits.all isGraphic = true) (leading : Int) :
    (Binary64.layOut digits leading).all isGraphic = true := by
  have htake : ∀ n, (digits.take n).all isGraphic = true := fun n =>
    isGraphic_part h (List.take_subset n digits)
  have hdrop : ∀ n, (digits.drop n).all isGraphic = true := fun n =>
    isGraphic_part h (List.drop_subset n digits)
  unfold Binary64.layOut
  dsimp only
  split
  · split
    · rw [List.all_append, List.all_append, isGraphic_zeros, h]
      rfl
    · rw [List.all_append, List.all_append, htake, isGraphic_zeros, List.all_cons]
      split
      · rfl
      · rw [hdrop]
        rfl
  · rw [List.all_append, List.all_append, List.all_append, List.all_append, htake, isGraphic_zeros,
      isGraphic_toDigits]
    have hmark : (if leading < 0 then "e-" else "e+").toList.all isGraphic = true := by
      split <;> rfl
    rw [hmark]
    split
    · rfl
    · rw [List.all_cons, hdrop]
      rfl

/-- A number of double precision is one word, the three without digits too. -/
theorem isGraphic_writeFloat (x : Binary64) : (writeFloat x).all isGraphic = true := by
  cases x with
  | nan => rfl
  | infinite negative => cases negative <;> rfl
  | finite negative mantissa exponent =>
      have hsign : (if negative then ['-'] else []).all isGraphic = true := by
        cases negative <;> rfl
      show (Binary64.text (.finite negative mantissa exponent)).toList.all isGraphic = true
      unfold Binary64.text
      dsimp only
      split
      · rw [String.toList_ofList, List.all_append, hsign]
        rfl
      · rw [String.toList_ofList, List.all_append, hsign, Bool.true_and]
        exact isGraphic_layOut (isGraphic_stripZeros (isGraphic_toDigits _)) _

/-- There is always a digit or a point. -/
theorem layOut_ne_nil (digits : List Char) (leading : Int) : Binary64.layOut digits leading ≠ [] := by
  unfold Binary64.layOut
  dsimp only
  split
  · split
    · exact List.cons_ne_nil _ _
    · exact List.append_ne_nil_of_right_ne_nil _ (List.cons_ne_nil _ _)
  · exact List.append_ne_nil_of_right_ne_nil _ Nat.toDigits_ne_nil

/-- A number of double precision is never written as nothing. -/
theorem writeFloat_ne_nil (x : Binary64) : writeFloat x ≠ [] := by
  cases x with
  | nan => exact List.cons_ne_nil _ _
  | infinite negative => cases negative <;> exact List.cons_ne_nil _ _
  | finite negative mantissa exponent =>
      show (Binary64.text (.finite negative mantissa exponent)).toList ≠ []
      unfold Binary64.text
      dsimp only
      split
      · rw [String.toList_ofList]
        exact List.append_ne_nil_of_right_ne_nil _ (List.cons_ne_nil _ _)
      · rw [String.toList_ofList]
        exact List.append_ne_nil_of_right_ne_nil _ (layOut_ne_nil _ _)

-- ============================================================== values

/-- Whether a value is written without brackets or quotes. -/
def isBare : Json → Bool
  | .str _ => false
  | .arr _ => false
  | .obj _ => false
  | _ => true

/-- The text of a value without brackets or quotes is one word. -/
theorem write_bare (value : Json) (h : value.isBare = true) :
    value.write ≠ [] ∧ value.write.all isGraphic = true := by
  cases value with
  | null => exact ⟨List.cons_ne_nil _ _, rfl⟩
  | bool b => cases b <;> exact ⟨List.cons_ne_nil _ _, rfl⟩
  | float x => exact ⟨writeFloat_ne_nil x, isGraphic_writeFloat x⟩
  | int n =>
      cases n with
      | ofNat n =>
          show (toString (n : Int)).toList ≠ [] ∧ (toString (n : Int)).toList.all isGraphic = true
          rw [toList_toString_nonneg]
          exact ⟨Nat.toDigits_ne_nil, isGraphic_toDigits n⟩
      | negSucc n =>
          show (toString (Int.negSucc n)).toList ≠ []
            ∧ (toString (Int.negSucc n)).toList.all isGraphic = true
          rw [toList_toString_neg, List.all_cons, isGraphic_toDigits]
          exact ⟨List.cons_ne_nil _ _, rfl⟩
  | str s => cases h
  | arr items => cases h
  | obj fields => cases h

mutual

/-- The text of a value is printable ASCII throughout, so it holds no line
break. -/
theorem isPrinted_write (value : Json) : value.write.all isPrinted = true := by
  have hbare : value.isBare = true → value.write.all isPrinted = true := fun h =>
    List.all_eq_true.mpr fun c hc =>
      isPrinted_of_isGraphic (List.all_eq_true.mp (write_bare value h).2 c hc)
  cases value with
  | str s =>
      rw [write, writeString, List.all_append, List.all_cons, isPrinted_escapes]
      rfl
  | arr items =>
      rw [write, List.all_append, List.all_cons, isPrinted_writeItems items]
      rfl
  | obj fields =>
      rw [write, List.all_append, List.all_cons, isPrinted_writeFields fields]
      rfl
  | _ => exact hbare rfl
termination_by sizeOf value

/-- The texts of elements are printed, and what separates them is. -/
theorem isPrinted_writeItems (items : List Json) : (writeItems items).all isPrinted = true := by
  cases items with
  | nil => rfl
  | cons item items =>
      rw [writeItems_cons, List.all_append, isPrinted_write item]
      split
      · rfl
      · rw [List.all_cons, List.all_cons, isPrinted_writeItems items]
        rfl
termination_by sizeOf items

/-- The texts of fields are printed, and what separates them is. -/
theorem isPrinted_writeFields (fields : List (JsonString × Json)) :
    (writeFields fields).all isPrinted = true := by
  cases fields with
  | nil => rfl
  | cons field fields =>
    cases field with
    | mk key value =>
      rw [writeFields_cons, List.all_cons, List.all_append, isPrinted_escapes, List.all_cons,
        List.all_cons, List.all_cons, List.all_append, isPrinted_write value]
      split
      · rfl
      · rw [List.all_cons, List.all_cons, isPrinted_writeFields fields]
        rfl
termination_by sizeOf fields

end

/-- No other character stands in the text of a value, a line break least of
all. -/
theorem not_mem_write (value : Json) {c : Char} (hc : isPrinted c = false) : c ∉ value.write := by
  intro hmem
  have hprinted := List.all_eq_true.mp (isPrinted_write value) c hmem
  rw [hc] at hprinted
  exact absurd hprinted Bool.false_ne_true

/-- Every value is written as something. -/
theorem write_ne_nil (value : Json) : value.write ≠ [] := by
  cases value with
  | str s => exact List.cons_ne_nil _ _
  | arr items => exact List.cons_ne_nil _ _
  | obj fields => exact List.cons_ne_nil _ _
  | _ => exact (write_bare _ rfl).1

/-- The text of a value has no blank at either end. -/
theorem trim_write (value : Json) : trim value.write = value.write := by
  have hbare : value.isBare = true → trim value.write = value.write := by
    intro h
    have hnone : ∀ c ∈ value.write, isBlank c = false := fun c hc =>
      isBlank_of_isGraphic (List.all_eq_true.mp (write_bare value h).2 c hc)
    exact (trim_eq_self_iff _).mpr ⟨fun c hc => hnone c (List.mem_of_head? hc),
      fun c hc => hnone c (List.mem_of_getLast? hc)⟩
  cases value with
  | str s => exact trim_between (by decide) (by decide) _
  | arr items => exact trim_between (by decide) (by decide) _
  | obj fields => exact trim_between (by decide) (by decide) _
  | _ => exact hbare rfl

end Daybook.Json
