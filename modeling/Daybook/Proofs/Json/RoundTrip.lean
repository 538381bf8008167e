/-
The text of a value is read back as that value.

# What is given back

A double precision number is written in its shortest decimals and a field
that is set twice is read once, so the law is stated for plain values:
those without such numbers and with every field once.  Strings are
arbitrary.  A plain value has a text as far as its whole numbers have one
(`isWritable`).

# How the proof goes

Reading takes a value from the head of a text and returns the rest, so
the law carries a rest along, and that rest may not go on a number:
behind a value stands nothing, a comma or a closing bracket (`Closes`).

- Strings go point by point (`readPoints_escapePoint`).  The one point
  that looks ahead is the first half of a surrogate pair: it stays alone
  only if no second half follows, which a string rules out.
- Whole numbers go back through the digits of the core library.
- Values go by structural induction, the fuel being twice the length of
  the text.
-/
import Daybook.Json.Read
import Daybook.Json.Write

namespace Daybook.Record

/-- A field that is not set is set at the end. -/
theorem set_of_absent (record : Record) (key : JsonString) (value : Json)
    (h : ∀ field ∈ record, field.1 ≠ key) : record.set key value = record ++ [(key, value)] := by
  induction record with
  | nil => rfl
  | cons field record ih =>
      have hne : field.1 ≠ key := h field List.mem_cons_self
      have hrest := ih fun other hmem => h other (List.mem_cons_of_mem field hmem)
      unfold set
      rw [if_neg hne, hrest]
      rfl

end Daybook.Record

namespace Daybook.Json

open Text

-- ======================================================= plain values

mutual

/-- Whether a value holds no double precision number and no field
twice. -/
def isPlain : Json → Bool
  | .float _ => false
  | .arr items => arePlain items
  | .obj fields => fieldsPlain fields
  | _ => true

/-- Whether all elements are plain. -/
def arePlain : List Json → Bool
  | [] => true
  | item :: items => isPlain item && arePlain items

/-- Whether the values of all fields are plain and no field comes twice. -/
def fieldsPlain : List (JsonString × Json) → Bool
  | [] => true
  | (key, value) :: fields =>
    fields.all (·.1 ≠ key) && isPlain value && fieldsPlain fields

end

-- ============================================================= strings

theorem hexValue?_digitChar : ∀ {n : Nat}, n < 16 → hexValue? (Nat.digitChar n) = some n := by
  decide

/-- Four digits of a code unit are read back as it. -/
theorem unit?_hexDigits {n : Nat} (h : n < 0x10000) (rest : List Char) :
    unit? (hexDigits 4 n ++ rest) = some (n, rest) := by
  have h0 := @hexValue?_digitChar (n % 16) (by omega)
  have h1 := @hexValue?_digitChar (n / 16 % 16) (by omega)
  have h2 := @hexValue?_digitChar (n / 16 / 16 % 16) (by omega)
  have h3 := @hexValue?_digitChar (n / 16 / 16 / 16 % 16) (by omega)
  simp only [hexDigits, List.nil_append, List.cons_append, unit?, h0, h1, h2, h3,
    Option.some.injEq, Prod.mk.injEq, and_true]
  omega

/-- The second half of a surrogate pair at the head of a text, as an
escape. -/
def lowUnit? (cs : List Char) : Option (Nat × List Char) :=
  match cs with
  | '\\' :: 'u' :: more =>
    (unit? more).filter fun (low, _) => 0xDC00 ≤ low && low < 0xE000
  | _ => none

theorem escaped?_hexDigits {n : Nat} (h : n < 0x10000) (rest : List Char) :
    escaped? ('u' :: (hexDigits 4 n ++ rest))
      = some (match if 0xD800 ≤ n ∧ n < 0xDC00 then lowUnit? rest else none with
        | some (low, rest) =>
          (.char (Char.ofNat (0x10000 + (n - 0xD800) * 0x400 + (low - 0xDC00))), rest)
        | none => (.ofUnit n, rest)) := by
  simp only [escaped?, unit?_hexDigits h, Option.map_some]
  rfl

/-- A code unit that no second half completes is a point of its own. -/
theorem escaped?_unit {n : Nat} (h : n < 0x10000) {rest : List Char}
    (halone : n < 0xD800 ∨ 0xDC00 ≤ n ∨ lowUnit? rest = none) :
    escaped? ('u' :: (hexDigits 4 n ++ rest)) = some (.ofUnit n, rest) := by
  rw [escaped?_hexDigits h]
  by_cases hhigh : 0xD800 ≤ n ∧ n < 0xDC00
  · have hnone : lowUnit? rest = none := by
      rcases halone with hlow | hlow | hnone
      · omega
      · omega
      · exact hnone
    rw [if_pos hhigh, hnone]
  · rw [if_neg hhigh]

/-- The two halves of a surrogate pair are one character. -/
theorem escaped?_pair (high low : Nat) (hhigh : 0xD800 ≤ high ∧ high < 0xDC00)
    (hlow : 0xDC00 ≤ low ∧ low < 0xE000) (rest : List Char) :
    escaped? ('u' :: (hexDigits 4 high ++ (escapeUnit low ++ rest)))
      = some (.char (Char.ofNat (0x10000 + (high - 0xD800) * 0x400 + (low - 0xDC00))), rest) := by
  have hunit : lowUnit? (escapeUnit low ++ rest) = some (low, rest) := by
    simp only [escapeUnit, List.cons_append, lowUnit?, unit?_hexDigits (by omega : low < 0x10000),
      Option.filter_some, hlow, decide_true, Bool.and_self, if_true]
  rw [escaped?_hexDigits (by omega), if_pos hhigh, hunit]

/-- A character is no surrogate. -/
theorem toNat_not_surrogate (c : Char) :
    c.toNat < 0xD800 ∨ (0xE000 ≤ c.toNat ∧ c.toNat < 0x110000) := by
  rcases c.valid with h | ⟨hlow, hhigh⟩
  · exact .inl h
  · exact .inr ⟨hlow, hhigh⟩

theorem ofUnit_toNat (c : Char) : Point.ofUnit c.toNat = .char c := by
  have hc := toNat_not_surrogate c
  unfold Point.ofUnit
  rw [dif_neg (by omega), Char.ofNat_toNat]

/-- Puts a point before what was read behind it. -/
def before (point : Point) (read : List Point × List Char) : List Point × List Char :=
  (point :: read.1, read.2)

theorem readPoints_escaped {point : Point} {cs rest : List Char}
    (h : escaped? cs = some (point, rest)) (fuel : Nat) :
    readPoints (fuel + 1) ('\\' :: cs) = (readPoints fuel rest).map (before point) := by
  simp only [readPoints, h]
  rfl

theorem readPoints_bare {c : Char} (hquote : c ≠ '"') (hslash : c ≠ '\\') (hc : 32 ≤ c.toNat)
    (rest : List Char) (fuel : Nat) :
    readPoints (fuel + 1) (c :: rest) = (readPoints fuel rest).map (before (.char c)) := by
  rw [readPoints, if_neg (by omega)]
  · rfl
  · exact hquote
  · exact hslash

/-- Whether a character is in the printable ASCII range. -/
def isPrinted (c : Char) : Bool := 32 ≤ c.toNat && c.toNat < 127

/-- The forms that the escape of a character takes: a letter behind a
backslash, the character itself, one code unit, or two. -/
inductive Escape (c : Char) : List Char → Prop
  | letter {letter : Char} (hother : letter ≠ 'u') (hprinted : isPrinted letter = true)
    (hread : ∀ rest, escaped? (letter :: rest) = some (.char c, rest)) : Escape c ['\\', letter]
  | bare (hquote : c ≠ '"') (hslash : c ≠ '\\') (hprinted : isPrinted c = true) : Escape c [c]
  | unit (h : c.toNat < 0x10000) : Escape c (escapeUnit c.toNat)
  | pair (h : 0x10000 ≤ c.toNat) :
    Escape c (escapeUnit (0xD800 + (c.toNat - 0x10000) / 0x400) ++
      escapeUnit (0xDC00 + (c.toNat - 0x10000) % 0x400))

theorem escapeChar_spec (c : Char) : ∃ text, escapeChar c = text ∧ Escape c text := by
  refine ⟨_, rfl, ?_⟩
  unfold escapeChar
  by_cases hquote : c = '"' ∨ c = '\\'
  · rw [if_pos hquote]
    rcases hquote with rfl | rfl
    · exact .letter (by decide) rfl fun _ => rfl
    · exact .letter (by decide) rfl fun _ => rfl
  rw [if_neg hquote]
  by_cases hfeed : c = '\n'
  · rw [if_pos hfeed, hfeed]
    exact .letter (by decide) rfl fun _ => rfl
  rw [if_neg hfeed]
  by_cases hreturn : c = '\r'
  · rw [if_pos hreturn, hreturn]
    exact .letter (by decide) rfl fun _ => rfl
  rw [if_neg hreturn]
  by_cases htab : c = '\t'
  · rw [if_pos htab, htab]
    exact .letter (by decide) rfl fun _ => rfl
  rw [if_neg htab]
  by_cases hback : c.toNat = 8
  · rw [if_pos hback, ← Char.ofNat_toNat c, hback]
    exact .letter (by decide) rfl fun _ => rfl
  rw [if_neg hback]
  by_cases hform : c.toNat = 12
  · rw [if_pos hform, ← Char.ofNat_toNat c, hform]
    exact .letter (by decide) rfl fun _ => rfl
  rw [if_neg hform]
  by_cases hbare : 32 ≤ c.toNat ∧ c.toNat < 127
  · rw [if_pos hbare]
    rw [not_or] at hquote
    exact .bare hquote.1 hquote.2 (by simp [isPrinted, hbare.1, hbare.2])
  rw [if_neg hbare]
  by_cases hunit : c.toNat < 0x10000
  · rw [if_pos hunit]
    exact .unit hunit
  · rw [if_neg hunit]
    exact .pair (Nat.le_of_not_lt hunit)

/-- A character is read back from its escape. -/
theorem readPoints_escapeChar (c : Char) (rest : List Char) (fuel : Nat) :
    readPoints (fuel + 1) (escapeChar c ++ rest)
      = (readPoints fuel rest).map (before (.char c)) := by
  have hvalid := toNat_not_surrogate c
  obtain ⟨text, htext, hescape⟩ := escapeChar_spec c
  rw [htext]
  cases hescape with
  | letter _ _ hread => exact readPoints_escaped (hread rest) fuel
  | bare hquote hslash hprinted =>
      have hrange := Bool.and_eq_true_iff.mp hprinted
      exact readPoints_bare hquote hslash (of_decide_eq_true hrange.1) rest fuel
  | unit h =>
      -- one code unit, and no surrogate since it is a character
      have hunit : escaped? ('u' :: (hexDigits 4 c.toNat ++ rest)) = some (.char c, rest) := by
        rw [escaped?_unit h (by omega), ofUnit_toNat]
      exact readPoints_escaped hunit fuel
  | pair h =>
      have hpair := escaped?_pair (0xD800 + (c.toNat - 0x10000) / 0x400)
        (0xDC00 + (c.toNat - 0x10000) % 0x400) (by omega) (by omega) rest
      have hback : 0x10000 + (0xD800 + (c.toNat - 0x10000) / 0x400 - 0xD800) * 0x400
          + (0xDC00 + (c.toNat - 0x10000) % 0x400 - 0xDC00) = c.toNat := by omega
      rw [hback, Char.ofNat_toNat] at hpair
      rw [List.append_assoc]
      exact readPoints_escaped hpair fuel

/-- A point is read back from its escape; a first half only if no second
half follows. -/
theorem readPoints_escapePoint {point : Point} {rest : List Char}
    (h : point.isHigh = true → lowUnit? rest = none) (fuel : Nat) :
    readPoints (fuel + 1) (escapePoint point ++ rest)
      = (readPoints fuel rest).map (before point) := by
  cases point with
  | char c => exact readPoints_escapeChar c rest fuel
  | lone offset =>
      have hsize : (Point.lone offset).toNat = 0xD800 + offset.val := rfl
      have halone : 0xD800 + offset.val < 0xD800 ∨ 0xDC00 ≤ 0xD800 + offset.val
          ∨ lowUnit? rest = none := by
        by_cases hhigh : offset.val < 0x400
        · exact .inr (.inr (h (decide_eq_true hhigh)))
        · exact .inr (.inl (by omega))
      have hlone : Point.ofUnit (0xD800 + offset.val) = .lone offset := by
        unfold Point.ofUnit
        rw [dif_pos (by omega)]
        exact congrArg Point.lone (Fin.ext (Nat.add_sub_cancel_left _ _))
      have hunit := escaped?_unit (by omega : 0xD800 + offset.val < 0x10000) halone
      rw [hlone] at hunit
      exact readPoints_escaped hunit fuel

/-- Only the second half of a pair is written as one. -/
theorem lowUnit?_escapePoint {point : Point} (h : point.isLow = false) (rest : List Char) :
    lowUnit? (escapePoint point ++ rest) = none := by
  have hunit : ∀ {n : Nat} (more : List Char), n < 0x10000 → n < 0xDC00 ∨ 0xE000 ≤ n →
      lowUnit? (escapeUnit n ++ more) = none := by
    intro n more hn hlow
    have hno : ¬ (0xDC00 ≤ n ∧ n < 0xE000) := by omega
    simp only [escapeUnit, List.cons_append, lowUnit?, unit?_hexDigits hn, Option.filter_some]
    simpa using hno
  cases point with
  | lone offset =>
      have hhigh : offset.val < 0x400 := by
        have := of_decide_eq_false h
        omega
      exact hunit rest (by show 0xD800 + offset.val < _; omega)
        (.inl (by show 0xD800 + offset.val < _; omega))
  | char c =>
      have hvalid := toNat_not_surrogate c
      show lowUnit? (escapeChar c ++ rest) = none
      obtain ⟨text, htext, hescape⟩ := escapeChar_spec c
      rw [htext]
      cases hescape with
      | letter hother _ _ =>
          unfold lowUnit?
          split
          · next heq => exact absurd (List.cons.inj (List.cons.inj heq).2).1 hother
          · rfl
      | bare _ hslash _ =>
          unfold lowUnit?
          split
          · next heq => exact absurd (List.cons.inj heq).1 hslash
          · rfl
      | unit hsmall => exact hunit rest hsmall (by omega)
      | pair _ =>
          rw [List.append_assoc]
          exact hunit _ (by omega) (.inl (by omega))

theorem length_escapePoint (point : Point) : 0 < (escapePoint point).length := by
  cases point with
  | lone offset => exact Nat.succ_pos _
  | char c =>
      show 0 < (escapeChar c).length
      obtain ⟨text, htext, hescape⟩ := escapeChar_spec c
      rw [htext]
      cases hescape with
      | pair _ => exact Nat.succ_pos _
      | _ => exact Nat.succ_pos _

/-- Points that stand apart are read back. -/
theorem readPoints_escapes {points : List Point} (h : Point.apart points = true)
    (rest : List Char) (fuel : Nat) (hfuel : points.length < fuel) :
    readPoints fuel (points.flatMap escapePoint ++ '"' :: rest) = some (points, rest) := by
  induction points generalizing fuel with
  | nil =>
      cases fuel with
      | zero => exact absurd hfuel (Nat.not_lt_zero _)
      | succ fuel => rfl
  | cons point points ih =>
      cases fuel with
      | zero => exact absurd hfuel (Nat.not_lt_zero _)
      | succ fuel =>
          have hnext : point.isHigh = true →
              lowUnit? (points.flatMap escapePoint ++ '"' :: rest) = none := by
            intro hhigh
            cases points with
            | nil => rfl
            | cons second points =>
                have hlow : second.isLow = false := by
                  simpa [Point.apart, hhigh] using (Bool.and_eq_true_iff.mp h).1
                rw [List.flatMap_cons, List.append_assoc]
                exact lowUnit?_escapePoint hlow _
          have hrest := ih (Point.apart_tail h) fuel (Nat.lt_of_succ_lt_succ hfuel)
          rw [List.flatMap_cons, List.append_assoc, readPoints_escapePoint hnext, hrest]
          rfl

theorem readString_write (s : JsonString) (rest : List Char) :
    readString (s.points.flatMap escapePoint ++ '"' :: rest) = .ok (s, rest) := by
  have hlen : s.points.length < (s.points.flatMap escapePoint ++ '"' :: rest).length + 1 := by
    have hone : ∀ points : List Point, points.length ≤ (points.flatMap escapePoint).length := by
      intro points
      induction points with
      | nil => exact Nat.le_refl 0
      | cons point points ih =>
          have := length_escapePoint point
          rw [List.flatMap_cons, List.length_append, List.length_cons]
          omega
    have := hone s.points
    rw [List.length_append]
    omega
  unfold readString
  rw [readPoints_escapes s.apart_points rest _ hlen]
  exact congrArg (fun t => Except.ok (t, rest)) s.ofPoints_points

-- ======================================================= whole numbers

/-- Whether a text can stand behind a value: it begins with a comma or a
closing bracket, or it is empty. -/
def Closes (rest : List Char) : Prop := ∀ c ∈ rest.head?, c = ',' ∨ c = ']' ∨ c = '\x7d'

theorem closes_nil : Closes [] := fun _ h => absurd h (by simp)

theorem Closes.head {c : Char} {rest : List Char} (h : Closes (c :: rest)) :
    c = ',' ∨ c = ']' ∨ c = '\x7d' := h c rfl

theorem Closes.fractionDigits {rest : List Char} (h : Closes rest) : fractionDigits rest = [] := by
  cases rest with
  | nil => rfl
  | cons c rest => rcases h.head with rfl | rfl | rfl <;> rfl

theorem Closes.exponent? {rest : List Char} (h : Closes rest) : exponent? rest = none := by
  cases rest with
  | nil => rfl
  | cons c rest => rcases h.head with rfl | rfl | rfl <;> rfl

theorem Closes.takeWhile_digits {rest : List Char} (h : Closes rest) :
    rest.takeWhile isAsciiDigit = [] := by
  cases rest with
  | nil => rfl
  | cons c rest => rcases h.head with rfl | rfl | rfl <;> rfl

theorem isAsciiDigit_of_mem_toDigits {n : Nat} {c : Char} (h : c ∈ Nat.toDigits 10 n) :
    isAsciiDigit c = true := by
  have hdigit := Nat.isDigit_of_mem_toDigits (by decide) (by decide) h
  simpa [Char.isDigit, isAsciiDigit, UInt32.le_iff_toNat_le] using hdigit

/-- Only zero begins with a zero. -/
theorem head_toDigits {n : Nat} (h : 0 < n) {c : Char} {cs : List Char}
    (hcs : Nat.toDigits 10 n = c :: cs) : c ≠ '0' := by
  induction n using Nat.strongRecOn generalizing cs with
  | ind n ih =>
      by_cases hsmall : n < 10
      · rw [Nat.toDigits_of_lt_base hsmall] at hcs
        have hdigit : ∀ m < 10, 0 < m → Nat.digitChar m ≠ '0' := by decide
        exact (List.cons.inj hcs).1 ▸ hdigit n hsmall h
      · rw [Nat.toDigits_of_base_le (by decide) (by omega)] at hcs
        cases hmore : Nat.toDigits 10 (n / 10) with
        | nil => exact absurd hmore Nat.toDigits_ne_nil
        | cons d ds =>
            rw [hmore] at hcs
            obtain ⟨rfl, -⟩ := List.cons.inj hcs
            exact ih (n / 10) (by omega) (by omega) hmore

theorem wholeDigits_toDigits (n : Nat) {rest : List Char} (h : Closes rest) :
    wholeDigits (Nat.toDigits 10 n ++ rest) = Nat.toDigits 10 n := by
  by_cases hzero : n = 0
  · rw [hzero]
    rfl
  · cases hcs : Nat.toDigits 10 n with
    | nil => exact absurd hcs Nat.toDigits_ne_nil
    | cons c cs =>
        have hne := head_toDigits (by omega) hcs
        have hall : ∀ d ∈ c :: cs, isAsciiDigit d = true := fun d hd =>
          isAsciiDigit_of_mem_toDigits (n := n) (hcs ▸ hd)
        unfold wholeDigits
        split
        · next heq => exact absurd (List.cons.inj heq).1 hne
        · rw [List.takeWhile_append_of_pos hall, h.takeWhile_digits, List.append_nil]

theorem asciiValue_toDigits (n : Nat) : asciiValue (Nat.toDigits 10 n) = n := by
  have hsame : ∀ cs : List Char, asciiValue cs = Nat.ofDigitChars 10 cs 0 := by
    intro cs
    unfold asciiValue
    rw [Nat.ofDigitChars_eq_foldl]
    congr 1
    funext acc c
    rw [Nat.mul_comm]
    rfl
  rw [hsame, Nat.ofDigitChars_ten_toDigits]

/-- A whole number is read back from its digits. -/
theorem readNumber_toDigits (negative : Bool) {n : Nat} {rest : List Char} (h : Closes rest)
    (hlen : (Nat.toDigits 10 n).length ≤ maxDigits) :
    readNumber negative (Nat.toDigits 10 n ++ rest)
      = .ok (.int (if negative then -(n : Int) else n), rest) := by
  have hwhole : (Nat.toDigits 10 n).isEmpty = false :=
    List.isEmpty_eq_false_iff.mpr Nat.toDigits_ne_nil
  unfold readNumber
  simp only [wholeDigits_toDigits n h, List.drop_left, h.fractionDigits, List.isEmpty_nil, if_true,
    hwhole, h.exponent?, if_neg (Nat.not_lt.mpr hlen), asciiValue_toDigits, Bool.false_eq_true,
    if_false]

-- ============================================================== values

/-- Whether a character begins the text of a value: it is no blank and
closes nothing. -/
def isOpening (c : Char) : Bool :=
  !(c == ' ' || c == '\t' || c == '\n' || c == '\r' || c == ']' || c == '\x7d')

theorem isOpening_of_isAsciiDigit {c : Char} (h : isAsciiDigit c = true) : isOpening c = true := by
  unfold isOpening
  simp only [Bool.not_eq_true', Bool.or_eq_false_iff, beq_eq_false_iff_ne]
  refine ⟨⟨⟨⟨⟨?_, ?_⟩, ?_⟩, ?_⟩, ?_⟩, ?_⟩ <;> (rintro rfl; exact absurd h (by decide))

theorem toList_toString_nonneg (n : Nat) : (toString (n : Int)).toList = Nat.toDigits 10 n :=
  Nat.toList_repr

theorem toList_toString_neg (n : Nat) :
    (toString (Int.negSucc n)).toList = '-' :: Nat.toDigits 10 (n + 1) := by
  show ("-" ++ Nat.repr (n + 1)).toList = _
  rw [String.toList_append, Nat.toList_repr]
  rfl

/-- The text of a plain value begins with a character that opens one. -/
theorem write_opening {value : Json} (h : value.isPlain = true) :
    ∃ c cs, value.write = c :: cs ∧ isOpening c = true := by
  cases value with
  | null => exact ⟨_, _, rfl, rfl⟩
  | bool b => cases b <;> exact ⟨_, _, rfl, rfl⟩
  | float x => exact absurd h (by simp [isPlain])
  | str s => exact ⟨_, _, rfl, rfl⟩
  | arr items => exact ⟨_, _, rfl, rfl⟩
  | obj fields => exact ⟨_, _, rfl, rfl⟩
  | int n =>
      cases n with
      | negSucc n =>
          refine ⟨'-', Nat.toDigits 10 (n + 1), ?_, rfl⟩
          exact toList_toString_neg n
      | ofNat n =>
          cases hcs : Nat.toDigits 10 n with
          | nil => exact absurd hcs Nat.toDigits_ne_nil
          | cons c cs =>
              refine ⟨c, cs, ?_, ?_⟩
              · rw [← hcs]
                exact toList_toString_nonneg n
              · apply isOpening_of_isAsciiDigit
                exact isAsciiDigit_of_mem_toDigits (n := n) (hcs ▸ List.mem_cons_self)

theorem skipSpace_opening {c : Char} (h : isOpening c = true) (cs : List Char) :
    skipSpace (c :: cs) = c :: cs := by
  unfold isOpening at h
  simp only [Bool.not_eq_true', Bool.or_eq_false_iff] at h
  unfold skipSpace
  rw [List.dropWhile_cons_of_neg]
  simp [h.1.1.1.1.1, h.1.1.1.1.2, h.1.1.1.2, h.1.1.2]

theorem after?_of_ne {word : String} {c : Char} (w : Char) (ws : List Char) (hword : word.toList = w :: ws)
    (h : w ≠ c) (cs : List Char) : after? word (c :: cs) = none := by
  unfold after? startsWith
  rw [hword, if_neg]
  simp [h]

/-- Reading a digit is reading a number. -/
theorem readValue_digit {c : Char} (h : isAsciiDigit c = true) (cs : List Char) (fuel : Nat) :
    readValue (fuel + 1) (c :: cs) = readNumber false (c :: cs) := by
  have hne : ∀ {d : Char}, isAsciiDigit d = false → d ≠ c := by
    rintro d hd rfl
    rw [h] at hd
    exact absurd hd (by decide)
  rw [readValue]
  · rw [after?_of_ne 'n' "ull".toList rfl (hne (by decide)),
      after?_of_ne 't' "rue".toList rfl (hne (by decide)),
      after?_of_ne 'f' "alse".toList rfl (hne (by decide)),
      after?_of_ne 'N' "aN".toList rfl (hne (by decide)),
      after?_of_ne 'I' "nfinity".toList rfl (hne (by decide))]
  · exact List.cons_ne_nil c cs
  · exact fun rest hcs => hne (d := '"') (by decide) (List.cons.inj hcs).1.symm
  · exact fun rest hcs => hne (d := '[') (by decide) (List.cons.inj hcs).1.symm
  · exact fun rest hcs => hne (d := '\x7b') (by decide) (List.cons.inj hcs).1.symm
  · exact fun rest hcs => hne (d := '-') (by decide) (List.cons.inj hcs).1.symm

/-- A whole number is read back. -/
theorem readValue_int {n : Int} (h : isWritable (.int n) = true) {rest : List Char}
    (hrest : Closes rest) (fuel : Nat) :
    readValue (fuel + 1) (write (.int n) ++ rest) = .ok (.int n, rest) := by
  have hlen : (Nat.toDigits 10 n.natAbs).length ≤ maxDigits := by
    have := of_decide_eq_true h
    rwa [← String.length_toList, Nat.toString_eq_repr, Nat.toList_repr] at this
  cases n with
  | ofNat n =>
      have hread := readNumber_toDigits false hrest hlen
      show readValue (fuel + 1) ((toString (n : Int)).toList ++ rest) = _
      rw [toList_toString_nonneg]
      cases hcs : Nat.toDigits 10 n with
      | nil => exact absurd hcs Nat.toDigits_ne_nil
      | cons c cs =>
          have hc : isAsciiDigit c = true :=
            isAsciiDigit_of_mem_toDigits (n := n) (hcs ▸ List.mem_cons_self)
          rw [List.cons_append, readValue_digit hc, ← List.cons_append, ← hcs]
          exact hread
  | negSucc n =>
      have hread := readNumber_toDigits true hrest hlen
      show readValue (fuel + 1) ((toString (Int.negSucc n)).toList ++ rest) = _
      rw [toList_toString_neg, List.cons_append]
      cases hcs : Nat.toDigits 10 (n + 1) with
      | nil => exact absurd hcs Nat.toDigits_ne_nil
      | cons c cs =>
          have hc : isAsciiDigit c = true :=
            isAsciiDigit_of_mem_toDigits (n := n + 1) (hcs ▸ List.mem_cons_self)
          have hinf : 'I' ≠ c := by
            rintro rfl
            exact absurd hc (by decide)
          rw [readValue, List.cons_append,
            after?_of_ne 'I' "nfinity".toList rfl hinf, ← List.cons_append, ← hcs]
          exact hread

theorem closes_comma (rest : List Char) : Closes (',' :: rest) := by
  intro c hc
  exact .inl (Option.some.inj hc).symm

theorem closes_bracket (rest : List Char) : Closes (']' :: rest) := by
  intro c hc
  exact .inr (.inl (Option.some.inj hc).symm)

theorem closes_brace (rest : List Char) : Closes ('\x7d' :: rest) := by
  intro c hc
  exact .inr (.inr (Option.some.inj hc).symm)

theorem skipSpace_gap (cs : List Char) : skipSpace (' ' :: cs) = skipSpace cs := rfl

theorem skipSpace_write {value : Json} (h : value.isPlain = true) (rest : List Char) :
    skipSpace (value.write ++ rest) = value.write ++ rest := by
  obtain ⟨c, cs, hwrite, hc⟩ := write_opening h
  rw [hwrite, List.cons_append, skipSpace_opening hc]

theorem length_write_pos {value : Json} (h : value.isPlain = true) : 0 < value.write.length := by
  obtain ⟨c, cs, hwrite, -⟩ := write_opening h
  rw [hwrite]
  exact Nat.succ_pos _

/-- An array that is not empty is read element by element. -/
theorem readValue_bracket {c : Char} (h : isOpening c = true) (cs : List Char) (fuel : Nat) :
    readValue (fuel + 1) ('[' :: c :: cs)
      = (readItems fuel (c :: cs)).map fun (items, rest) => (.arr items, rest) := by
  have hne : c ≠ ']' := by
    rintro rfl
    exact absurd h (by decide)
  rw [readValue, skipSpace_opening h]
  split
  · next heq => exact absurd (List.cons.inj heq).1 hne
  · rfl

/-- Writing an array and an object, with what follows. -/
theorem write_arr_append (items : List Json) (rest : List Char) :
    write (.arr items) ++ rest = '[' :: (writeItems items ++ ']' :: rest) := by
  rw [write, List.append_assoc]
  rfl

theorem write_obj_append (fields : List (JsonString × Json)) (rest : List Char) :
    write (.obj fields) ++ rest = '\x7b' :: (writeFields fields ++ '\x7d' :: rest) := by
  rw [write, List.append_assoc]
  rfl

theorem length_write_arr (items : List Json) :
    (write (.arr items)).length = (writeItems items).length + 2 := by
  rw [← List.append_nil (write _), write_arr_append, List.length_cons, List.length_append]
  rfl

theorem length_write_obj (fields : List (JsonString × Json)) :
    (write (.obj fields)).length = (writeFields fields).length + 2 := by
  rw [← List.append_nil (write _), write_obj_append, List.length_cons, List.length_append]
  rfl

/-- A field with its value and what follows them. -/
theorem writeFields_cons (key : JsonString) (value : Json) (fields : List (JsonString × Json)) :
    writeFields ((key, value) :: fields) = '"' :: (key.points.flatMap escapePoint
      ++ '"' :: ':' :: ' ' :: (value.write
        ++ if fields = [] then [] else ',' :: ' ' :: writeFields fields)) := by
  cases fields with
  | nil => simp [writeFields, writeString]
  | cons next fields => simp [writeFields, writeString]

/-- An element and what follows it. -/
theorem writeItems_cons (item : Json) (items : List Json) :
    writeItems (item :: items)
      = item.write ++ if items = [] then [] else ',' :: ' ' :: writeItems items := by
  cases items with
  | nil => simp [writeItems]
  | cons next items => simp [writeItems]

/-- Behind an element a comma leads on to the others. -/
theorem readItems_comma {item : Json} {cs rest : List Char} {fuel : Nat}
    (h : readValue fuel cs = .ok (item, ',' :: rest)) :
    readItems (fuel + 1) cs
      = (readItems fuel (skipSpace rest)).map fun (items, rest) => (item :: items, rest) := by
  rw [readItems, h]
  rfl

theorem readItems_bracket {item : Json} {cs rest : List Char} {fuel : Nat}
    (h : readValue fuel cs = .ok (item, ']' :: rest)) :
    readItems (fuel + 1) cs = .ok ([item], rest) := by
  rw [readItems, h]
  rfl

/-- Behind its name and a colon the value of a field is read. -/
theorem readFields_colon (key : JsonString) (done : Record) (fuel : Nat) (rest : List Char) :
    readFields (fuel + 1) done ('"' :: (key.points.flatMap escapePoint ++ '"' :: ':' :: rest))
      = match readValue fuel (skipSpace rest) with
        | .error e => .error e
        | .ok (value, rest) =>
          match skipSpace rest with
          | ',' :: rest => readFields fuel (done.set key value) (skipSpace rest)
          | '\x7d' :: rest => .ok (done.set key value, rest)
          | _ => .error .malformed := by
  rw [readFields, readString_write]
  rfl

/-- A field is read up to what follows its value. -/
theorem readFields_field (key : JsonString) {value : Json} (done : Record) {fuel : Nat}
    {rest : List Char} (hplain : value.isPlain = true)
    (h : readValue fuel (value.write ++ rest) = .ok (value, rest)) :
    readFields (fuel + 1) done ('"' :: (key.points.flatMap escapePoint
        ++ '"' :: ':' :: ' ' :: (value.write ++ rest)))
      = match skipSpace rest with
        | ',' :: rest => readFields fuel (done.set key value) (skipSpace rest)
        | '\x7d' :: rest => .ok (done.set key value, rest)
        | _ => .error .malformed := by
  have hspace : readValue fuel (skipSpace (' ' :: (value.write ++ rest))) = .ok (value, rest) := by
    rw [skipSpace_gap, skipSpace_write hplain, h]
  rw [readFields_colon, hspace]

mutual

/-- The text of a plain value is read back as that value. -/
theorem readValue_write (value : Json) (hplain : value.isPlain = true)
    (hwritable : value.isWritable = true) {rest : List Char} (hrest : Closes rest) (fuel : Nat)
    (hfuel : 2 * value.write.length ≤ fuel) :
    readValue fuel (value.write ++ rest) = .ok (value, rest) := by
  have hpos := length_write_pos hplain
  obtain ⟨fuel, rfl⟩ : ∃ more, fuel = more + 1 := ⟨fuel - 1, by omega⟩
  cases value with
  | null => rfl
  | bool b => cases b <;> rfl
  | float x => exact absurd hplain (by simp [isPlain])
  | int n => exact readValue_int hwritable hrest fuel
  | str s =>
      rw [write, writeString, List.append_assoc]
      exact congrArg (Except.map _) (readString_write s rest)
  | arr items =>
      rw [isPlain] at hplain
      rw [isWritable] at hwritable
      rw [length_write_arr] at hfuel
      rw [write_arr_append]
      cases items with
      | nil => rfl
      | cons item items =>
          have hread := readItems_write (item :: items) (List.cons_ne_nil _ _) hplain hwritable
            rest fuel (by omega)
          rw [arePlain, Bool.and_eq_true] at hplain
          obtain ⟨c, cs, hwrite, hc⟩ := write_opening hplain.1
          rw [writeItems_cons, hwrite, List.cons_append, List.cons_append] at hread ⊢
          rw [readValue_bracket hc, hread]
          rfl
  | obj fields =>
      rw [isPlain] at hplain
      rw [isWritable] at hwritable
      rw [length_write_obj] at hfuel
      rw [write_obj_append]
      cases fields with
      | nil => rfl
      | cons field fields =>
          have hread := readFields_write (field :: fields) (List.cons_ne_nil _ _) hplain hwritable
            [] (fun _ hmem => absurd hmem List.not_mem_nil) rest fuel
            (by omega)
          obtain ⟨key, value⟩ := field
          rw [writeFields_cons, List.cons_append] at hread ⊢
          rw [readValue, skipSpace_opening (by decide)]
          exact congrArg (Except.map _) hread
termination_by sizeOf value

/-- The texts of plain elements are read back up to the closing
bracket. -/
theorem readItems_write (items : List Json) (hne : items ≠ []) (hplain : arePlain items = true)
    (hwritable : areWritable items = true) (rest : List Char) (fuel : Nat)
    (hfuel : 2 * (writeItems items).length < fuel) :
    readItems fuel (writeItems items ++ ']' :: rest) = .ok (items, rest) := by
  obtain ⟨fuel, rfl⟩ : ∃ more, fuel = more + 1 := ⟨fuel - 1, by omega⟩
  cases items with
  | nil => exact absurd rfl hne
  | cons item items =>
      rw [arePlain, Bool.and_eq_true] at hplain
      rw [areWritable, Bool.and_eq_true] at hwritable
      rw [writeItems_cons, List.length_append] at hfuel
      rw [writeItems_cons, List.append_assoc]
      have hpos := length_write_pos hplain.1
      cases items with
      | nil =>
          rw [if_pos rfl, List.nil_append]
          exact readItems_bracket
            (readValue_write item hplain.1 hwritable.1 (closes_bracket rest) fuel (by omega))
      | cons next items =>
          rw [if_neg (List.cons_ne_nil _ _), List.length_cons, List.length_cons] at hfuel
          have hread := readItems_write (next :: items) (List.cons_ne_nil _ _) hplain.2
            hwritable.2 rest fuel (by omega)
          have hnext := hplain.2
          rw [arePlain, Bool.and_eq_true] at hnext
          have hgap : skipSpace (' ' :: (writeItems (next :: items) ++ ']' :: rest))
              = writeItems (next :: items) ++ ']' :: rest := by
            rw [skipSpace_gap, writeItems_cons, List.append_assoc, skipSpace_write hnext.1]
          rw [if_neg (List.cons_ne_nil _ _), List.cons_append, List.cons_append, readItems_comma
            (readValue_write item hplain.1 hwritable.1 (closes_comma _) fuel (by omega)), hgap, hread]
          rfl
termination_by sizeOf items

/-- The texts of plain fields are read back up to the closing brace, behind
fields of other names. -/
theorem readFields_write (fields : List (JsonString × Json)) (hne : fields ≠ [])
    (hplain : fieldsPlain fields = true) (hwritable : fieldsWritable fields = true) (done : Record)
    (hdone : ∀ old ∈ done, ∀ field ∈ fields, old.1 ≠ field.1) (rest : List Char) (fuel : Nat)
    (hfuel : 2 * (writeFields fields).length < fuel) :
    readFields fuel done (writeFields fields ++ '\x7d' :: rest) = .ok (done ++ fields, rest) := by
  obtain ⟨fuel, rfl⟩ : ∃ more, fuel = more + 1 := ⟨fuel - 1, by omega⟩
  cases fields with
  | nil => exact absurd rfl hne
  | cons field fields =>
    cases field with
    | mk key value =>
      rw [fieldsPlain, Bool.and_eq_true, Bool.and_eq_true] at hplain
      rw [fieldsWritable, Bool.and_eq_true] at hwritable
      have hset := Record.set_of_absent done key value
        fun old hold => hdone old hold (key, value) List.mem_cons_self
      rw [writeFields_cons, List.length_cons, List.length_append, List.length_cons,
        List.length_cons, List.length_cons, List.length_append] at hfuel
      rw [writeFields_cons]
      simp only [List.cons_append, List.append_assoc]
      cases fields with
      | nil =>
          rw [if_pos rfl, List.nil_append, readFields_field key done
            hplain.1.2 (readValue_write value hplain.1.2 hwritable.1 (closes_brace rest)
              fuel (by omega)), ← hset]
          rfl
      | cons next fields =>
          rw [if_neg (List.cons_ne_nil _ _), List.length_cons, List.length_cons] at hfuel
          have hkeys : ∀ field ∈ next :: fields, key ≠ field.1 := by
            intro field hmem
            have := List.all_eq_true.mp hplain.1.1 field hmem
            exact (of_decide_eq_true this).symm
          have hdone' : ∀ old ∈ done ++ [(key, value)], ∀ field ∈ next :: fields,
              old.1 ≠ field.1 := by
            intro old hold field hmem
            rcases List.mem_append.mp hold with hold | hold
            · exact hdone old hold field (List.mem_cons_of_mem _ hmem)
            · rw [List.mem_singleton.mp hold]
              exact hkeys field hmem
          have hread := readFields_write (next :: fields) (List.cons_ne_nil _ _) hplain.2
            hwritable.2 _ hdone' rest fuel (by omega)
          have hgap : skipSpace (' ' :: (writeFields (next :: fields) ++ '\x7d' :: rest))
              = writeFields (next :: fields) ++ '\x7d' :: rest := by
            obtain ⟨nextKey, nextValue⟩ := next
            rw [skipSpace_gap, writeFields_cons, List.cons_append, skipSpace_opening (by decide)]
          have hstep := readFields_field key done hplain.1.2
            (readValue_write value hplain.1.2 hwritable.1
              (closes_comma (' ' :: (writeFields (next :: fields) ++ '\x7d' :: rest)))
              fuel (by omega))
          rw [if_neg (List.cons_ne_nil _ _), List.cons_append, List.cons_append, hstep, hset]
          show readFields fuel (done ++ [(key, value)])
            (skipSpace (' ' :: (writeFields (next :: fields) ++ '\x7d' :: rest))) = _
          rw [hgap, hread, List.append_assoc]
          rfl
termination_by sizeOf fields

end

/-- The text of a plain value that has one is read back as that value. -/
theorem readText_write {value : Json} (hplain : value.isPlain = true)
    (hwritable : value.isWritable = true) : readText value.write = .ok value := by
  have hread := readValue_write value hplain hwritable closes_nil
    (2 * value.write.length + 2) (by omega)
  have hspace := skipSpace_write hplain []
  rw [List.append_nil] at hread hspace
  unfold readText
  rw [hspace, hread]
  rfl

end Daybook.Json
