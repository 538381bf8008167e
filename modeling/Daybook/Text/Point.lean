/-
Code points: characters, and surrogates that stand alone.

A JSON string spells text as UTF-16 code units and may hold half of a
surrogate pair without the other half.  Such a half is no character, yet
it is kept apart from all others and is written back as it was read.
Where a character is needed, the replacement character stands for it.
-/

namespace Daybook.Text

/-- A code point of a JSON string. -/
inductive Point where
  | char (c : Char)
  /-- The surrogate at this offset from U+D800, without its partner. -/
  | lone (offset : Fin 0x800)
deriving DecidableEq

namespace Point

/-- The number of a code point. -/
def toNat : Point → Nat
  | .char c => c.toNat
  | .lone offset => 0xD800 + offset

/-- The point of a code unit: a lone surrogate where the unit is one. -/
def ofUnit (n : Nat) : Point :=
  if h : 0xD800 ≤ n ∧ n < 0xE000 then .lone ⟨n - 0xD800, by omega⟩ else .char (Char.ofNat n)

/-- The character that is shown for a point. -/
def shown : Point → Char
  | .char c => c
  | .lone _ => Char.ofNat 0xFFFD

/-- Whether a point is a character, or stands for a byte that belongs to
none: U+DC80 to U+DCFF do, for the bytes from 0x80 on. -/
def isEncodable : Point → Bool
  | .char _ => true
  | .lone offset => 0x480 ≤ offset.val && offset.val < 0x500

/-- The characters before the first lone surrogate, and the points from it
on. -/
def leading : List Point → List Char × List Point
  | .char c :: points => (c :: (leading points).1, (leading points).2)
  | points => ([], points)

-- ============================================================== pairs

/-- Whether a point is the first half of a surrogate pair. -/
def isHigh : Point → Bool
  | .char _ => false
  | .lone offset => offset.val < 0x400

/-- Whether a point is the second half of a surrogate pair. -/
def isLow : Point → Bool
  | .char _ => false
  | .lone offset => 0x400 ≤ offset.val

/-- The character that the two halves of a pair spell. -/
def paired (high low : Point) : Point :=
  .char (Char.ofNat (0x10000 + (high.toNat - 0xD800) * 0x400 + (low.toNat - 0xDC00)))

/-- Whether no two neighbours are the halves of one pair. -/
def apart : List Point → Bool
  | first :: second :: points => !(first.isHigh && second.isLow) && apart (second :: points)
  | _ => true

/-- The points with the halves of every pair joined to the character that
they spell. -/
def join : List Point → List Point
  | first :: second :: points =>
    if first.isHigh && second.isLow then paired first second :: join points
    else first :: join (second :: points)
  | points => points

-- ============================================================== laws

/-- Nothing is lost. -/
theorem leading_append (points : List Point) :
    (leading points).1.map .char ++ (leading points).2 = points := by
  fun_induction leading points with
  | case1 c points ih => simp [ih]
  | case2 => rfl

/-- What is left begins with a lone surrogate. -/
theorem leading_snd (points : List Point) :
    (leading points).2 = [] ∨ ∃ offset rest, (leading points).2 = .lone offset :: rest := by
  fun_induction leading points with
  | case1 c points ih => exact ih
  | case2 points h =>
    match points with
    | [] => exact .inl rfl
    | .lone offset :: rest => exact .inr ⟨offset, rest, rfl⟩
    | .char c :: rest => exact absurd rfl (h c rest)

theorem leading_map_char (cs : List Char) : leading (cs.map .char) = (cs, []) := by
  induction cs with
  | nil => rfl
  | cons c cs ih => simp [leading, ih]

/-- What stands apart stays apart without its first point. -/
theorem apart_tail {point : Point} {points : List Point} (h : apart (point :: points) = true) :
    apart points = true := by
  cases points with
  | nil => rfl
  | cons second points =>
    simp only [apart, Bool.and_eq_true] at h
    exact h.2

/-- Joining begins with a second half only where the points do. -/
theorem isLow_head_join {first point : Point} {points rest : List Point}
    (h : join (first :: points) = point :: rest) (low : point.isLow = true) :
    first.isLow = true := by
  cases points with
  | nil =>
    simp only [join, List.cons.injEq] at h
    rw [h.1]
    exact low
  | cons second points =>
    simp only [join] at h
    split at h
    · rw [← (List.cons.inj h).1] at low
      simp [paired, isLow] at low
    · rw [(List.cons.inj h).1]
      exact low

/-- After joining no pair is left. -/
theorem apart_join (points : List Point) : apart (join points) = true := by
  fun_induction join points with
  | case1 first second points pair ih =>
    cases hrest : join points with
    | nil => rfl
    | cons point rest =>
      rw [hrest] at ih
      simp [apart, paired, isHigh, ih]
  | case2 first second points noPair ih =>
    cases hrest : join (second :: points) with
    | nil => rfl
    | cons point rest =>
      rw [hrest] at ih
      simp only [apart, ih, Bool.and_true, Bool.not_eq_true', Bool.and_eq_false_iff]
      by_cases high : first.isHigh = true
      · refine .inr (Bool.eq_false_iff.2 fun low => noPair ?_)
        rw [high, isLow_head_join hrest low]
        rfl
      · exact .inl (Bool.eq_false_iff.2 high)
  | case3 points h =>
    match points with
    | [] => rfl
    | [point] => rfl
    | first :: second :: points => exact absurd rfl (h first second points)

/-- Points without a pair stay as they are. -/
theorem join_of_apart {points : List Point} (h : apart points = true) : join points = points := by
  fun_induction join points with
  | case1 first second points pair ih => simp [apart, pair] at h
  | case2 first second points noPair ih => rw [ih (apart_tail h)]
  | case3 points => rfl

/-- What follows the leading characters stands apart if all points do. -/
theorem apart_leading_snd {points : List Point} (h : apart points = true) :
    apart (leading points).2 = true := by
  fun_induction leading points with
  | case1 c points ih => exact ih (apart_tail h)
  | case2 => exact h

/-- Characters in front keep points apart. -/
theorem apart_map_char_append (cs : List Char) {points : List Point} (h : apart points = true) :
    apart (cs.map .char ++ points) = true := by
  induction cs with
  | nil => exact h
  | cons c cs ih =>
    cases hrest : cs.map Point.char ++ points with
    | nil => simp [hrest, apart]
    | cons point rest =>
      rw [hrest] at ih
      simp [hrest, apart, isHigh, ih]

theorem leading_lone (cs : List Char) (offset : Fin 0x800) (rest : List Point) :
    leading (cs.map .char ++ .lone offset :: rest) = (cs, .lone offset :: rest) := by
  induction cs with
  | nil => rfl
  | cons c cs ih => simp [leading, ih]

end Point
end Daybook.Text
