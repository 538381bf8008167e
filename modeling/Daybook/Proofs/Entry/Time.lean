/-
A time in its one spelling is not spelled anew.

However a time was typed, its clock is `Sound`: an hour of at most two
digits, two digits for the minutes, and the half of the day in capitals
(`sound_of_clock?`).  The text of such a clock is the text of no other time:
it is read with the same hour, with the minutes that are written there, and
with the same half (`clock?_text`).  So normalizing twice is normalizing
once (`normalizeTime_normalizeTime`).
-/
import Daybook.Entry.Time
import Daybook.Proofs.Text.Digit
import Daybook.Proofs.Text.Pieces

namespace Daybook.Entry

open Text

variable {clock : Clock} {cs : List Char} {hour : Nat}

-- ============================================================ the parts

/-- What a time can be that was typed: an hour of two digits, minutes of two
digits if there are any, and one of the halves of the day if it was named. -/
structure Clock.Sound (clock : Clock) : Prop where
  hour : clock.hour < 100
  minutes : ∀ digits ∈ clock.minutes, ∃ a b, digits = [a, b] ∧ isDigit a = true ∧ isDigit b = true
  half : ∀ half ∈ clock.half, half = "AM" ∨ half = "PM"

theorem half_of_half? {half : Option String} (h : half? cs = some half) :
    ∀ name ∈ half, name = "AM" ∨ name = "PM" := by
  rintro name rfl
  unfold half? at h
  split at h
  · cases h
  · split at h
    · split at h
      · cases h
        exact .inl rfl
      · split at h
        · cases h
          exact .inr rfl
        · cases h
    · cases h
  · cases h

theorem sound_of_afterHour (hhour : hour < 100) (h : afterHour hour cs = some clock) : clock.Sound := by
  unfold afterHour at h
  dsimp only at h
  split at h
  · next a b rest _ =>
      split at h
      · next hdigits =>
          obtain ⟨half, hhalf, rfl⟩ := Option.map_eq_some_iff.mp h
          rw [Bool.and_eq_true] at hdigits
          refine ⟨hhour, ?_, half_of_half? hhalf⟩
          rintro digits ⟨⟩
          exact ⟨a, b, rfl, hdigits⟩
      · obtain ⟨half, hhalf, rfl⟩ := Option.map_eq_some_iff.mp h
        exact ⟨hhour, (fun _ hnone => nomatch hnone), half_of_half? hhalf⟩
  · obtain ⟨half, hhalf, rfl⟩ := Option.map_eq_some_iff.mp h
    exact ⟨hhour, (fun _ hnone => nomatch hnone), half_of_half? hhalf⟩

theorem sound_of_clock? (h : clock? cs = some clock) : clock.Sound := by
  unfold clock? at h
  split at h
  · next a rest =>
      split at h
      · cases h
      · next x hx =>
          have hfirst := lt_ten_of_digitValue? hx
          dsimp only at h
          split at h
          · split at h
            · next y hy =>
                have hsecond := lt_ten_of_digitValue? hy
                rcases Option.or_eq_some_iff.mp h with hlong | ⟨-, hshort⟩
                · exact sound_of_afterHour (by omega) hlong
                · exact sound_of_afterHour (by omega) hshort
            · exact sound_of_afterHour (by omega) h
          · exact sound_of_afterHour (by omega) h
  · cases h

-- ========================================================= the spelling

/-- The text of a clock: the digits of the hour, a colon, the minutes, and
the half of the day behind a blank. -/
theorem Clock.toList_text (clock : Clock) : clock.text.toList = Nat.toDigits 10 clock.hour
    ++ ':' :: (clock.minutes.getD ['0', '0'] ++ clock.half.elim [] fun half => ' ' :: half.toList) := by
  have hcolon : ":".toList = [':'] := rfl
  have hblank : " ".toList = [' '] := rfl
  unfold Clock.text
  cases clock.half with
  | none => simp [hcolon, Nat.toList_repr]
  | some half => simp [hcolon, hblank, Nat.toList_repr]

/-- There are always two digits for the minutes. -/
theorem Clock.Sound.minutes_getD (h : clock.Sound) : ∃ a b, clock.minutes.getD ['0', '0'] = [a, b]
    ∧ isDigit a = true ∧ isDigit b = true := by
  cases hminutes : clock.minutes with
  | none => exact ⟨'0', '0', rfl, by decide, by decide⟩
  | some digits => exact h.minutes digits hminutes

/-- The digits of an hour are one or two. -/
theorem toDigits_hour (h : hour < 100) : (hour < 10 ∧ Nat.toDigits 10 hour = [Nat.digitChar hour])
    ∨ (10 ≤ hour ∧ Nat.toDigits 10 hour = [Nat.digitChar (hour / 10), Nat.digitChar (hour % 10)]) := by
  by_cases hsmall : hour < 10
  · exact .inl ⟨hsmall, Nat.toDigits_of_lt_base hsmall⟩
  · refine .inr ⟨by omega, ?_⟩
    rw [Nat.toDigits_of_base_le (by decide) (by omega), Nat.toDigits_of_lt_base (by omega)]
    rfl

/-- What stands behind the hour is read as it is written. -/
theorem Clock.Sound.afterHour_minutes (h : clock.Sound) (hour : Nat) :
    afterHour hour (':' :: (clock.minutes.getD ['0', '0']
        ++ clock.half.elim [] fun half => ' ' :: half.toList))
      = some ⟨hour, some (clock.minutes.getD ['0', '0']), clock.half⟩ := by
  obtain ⟨a, b, hminutes, ha, hb⟩ := h.minutes_getD
  have hhalf : half? (skipBlank (clock.half.elim [] fun half => ' ' :: half.toList)) = some clock.half := by
    cases hname : clock.half with
    | none => rfl
    | some half =>
        rcases h.half half hname with rfl | rfl
        · decide
        · decide
  rw [hminutes]
  unfold afterHour
  simp only [List.cons_append, List.nil_append, true_or, if_true, ha, hb, Bool.and_self, hhalf]
  rfl

/-- The text of a clock is read as that clock, with the minutes that are
written there. -/
theorem Clock.Sound.clock?_text (h : clock.Sound) :
    clock? clock.text.toList = some { clock with minutes := some (clock.minutes.getD ['0', '0']) } := by
  rw [Clock.toList_text]
  rcases toDigits_hour h.hour with ⟨hsmall, hdigits⟩ | ⟨hbig, hdigits⟩
  · have hcolon : digitValue? ':' = none := by decide
    rw [hdigits, List.singleton_append]
    unfold clock?
    simp only [digitValue?_digitChar hsmall, hcolon]
    exact h.afterHour_minutes clock.hour
  · have hhour := h.hour
    have htens : digitValue? (Nat.digitChar (clock.hour / 10)) = some (clock.hour / 10) :=
      digitValue?_digitChar (by omega)
    have hunits : digitValue? (Nat.digitChar (clock.hour % 10)) = some (clock.hour % 10) :=
      digitValue?_digitChar (by omega)
    have hvalue : clock.hour / 10 * 10 + clock.hour % 10 = clock.hour := by omega
    rw [hdigits, List.cons_append, List.singleton_append]
    unfold clock?
    simp only [htens, hunits, hvalue, h.afterHour_minutes, Option.some_or]

/-- The text of a clock is trimmed. -/
theorem Clock.Sound.trim_text (h : clock.Sound) : trim clock.text.toList = clock.text.toList := by
  obtain ⟨a, b, hminutes, -, hb⟩ := h.minutes_getD
  rw [Clock.toList_text, hminutes, trim_eq_self_iff]
  constructor
  · intro c hc
    rw [List.head?_append_of_ne_nil _ Nat.toDigits_ne_nil] at hc
    exact (plain_of_isDigit (isDigit_of_mem_toDigits (List.mem_of_mem_head? hc))).1
  · intro c hc
    rw [List.getLast?_append_of_ne_nil _ (List.cons_ne_nil _ _)] at hc
    cases hname : clock.half with
    | none =>
        rw [hname] at hc
        cases hc
        exact not_blank_of_isDigit hb
    | some half =>
        rw [hname] at hc
        rcases h.half half hname with rfl | rfl
        · obtain rfl : 'M' = c := Option.some.inj hc
          decide
        · obtain rfl : 'M' = c := Option.some.inj hc
          decide

/-- The text of a clock holds digits, a colon, and the half of the day
behind a blank. -/
theorem Clock.Sound.mem_text (h : clock.Sound) {c : Char} (hc : c ∈ clock.text.toList) :
    isDigit c = true ∨ c ∈ [':', ' ', 'A', 'P', 'M'] := by
  obtain ⟨a, b, hminutes, ha, hb⟩ := h.minutes_getD
  rw [Clock.toList_text, hminutes, List.mem_append, List.mem_cons, List.mem_append] at hc
  rcases hc with hc | rfl | hc | hc
  · have hvalue := digitValue?_of_isDigit (isDigit_of_mem_toDigits hc)
    exact .inl (by unfold isDigit; rw [hvalue]; rfl)
  · exact .inr (by decide)
  · rcases List.mem_pair.mp hc with rfl | rfl
    · exact .inl ha
    · exact .inl hb
  · cases hname : clock.half with
    | none =>
        rw [hname] at hc
        cases hc
    | some half =>
        rw [hname] at hc
        refine .inr ?_
        rcases h.half half hname with rfl | rfl
        · have hmorning : [' ', 'A', 'M'] ⊆ [':', ' ', 'A', 'P', 'M'] := by simp
          exact hmorning hc
        · have hevening : [' ', 'P', 'M'] ⊆ [':', ' ', 'A', 'P', 'M'] := by simp
          exact hevening hc

-- ====================================================== normalized times

/-- What is no time is trimmed, and a time is spelled by its clock. -/
theorem normalizeTime_cases (s : String) :
    clock? (trim s.toList) = none ∧ normalizeTime s = trimmed s
      ∨ ∃ clock : Clock, clock.Sound ∧ normalizeTime s = clock.text := by
  unfold normalizeTime
  cases hclock : clock? (trim s.toList) with
  | none => exact .inl ⟨rfl, rfl⟩
  | some clock => exact .inr ⟨clock, sound_of_clock? hclock, rfl⟩

/-- A normalized time is not normalized any further. -/
theorem normalizeTime_normalizeTime (s : String) : normalizeTime (normalizeTime s) = normalizeTime s := by
  rcases normalizeTime_cases s with ⟨hclock, htime⟩ | ⟨clock, hsound, htime⟩
  · rw [htime]
    unfold normalizeTime
    rw [toList_trimmed, trim_trim, hclock]
    exact trimmed_trimmed s
  · rw [htime]
    unfold normalizeTime
    rw [hsound.trim_text, hsound.clock?_text]
    rfl

theorem trimmed_normalizeTime (s : String) : trimmed (normalizeTime s) = normalizeTime s := by
  rcases normalizeTime_cases s with ⟨-, htime⟩ | ⟨clock, hsound, htime⟩
  · rw [htime, trimmed_trimmed]
  · rw [htime, trimmed, hsound.trim_text, String.ofList_toList]

/-- Only what is blank is normalized to nothing. -/
theorem normalizeTime_ne_empty {s : String} (h : trimmed s ≠ "") : normalizeTime s ≠ "" := by
  rcases normalizeTime_cases s with ⟨-, htime⟩ | ⟨clock, -, htime⟩
  · rwa [htime]
  · rw [htime]
    intro hempty
    have hnil := congrArg String.toList hempty
    rw [Clock.toList_text] at hnil
    exact List.cons_ne_nil _ _ (List.append_eq_nil_iff.mp hnil).2

/-- A normalized time that holds anything but what a clock is spelled with was
only trimmed. -/
theorem normalizeTime_eq_trimmed {s : String} {c : Char} (hc : c ∈ (normalizeTime s).toList)
    (hdigit : isDigit c = false) (hother : c ∉ [':', ' ', 'A', 'P', 'M']) : normalizeTime s = trimmed s := by
  rcases normalizeTime_cases s with ⟨-, htime⟩ | ⟨clock, hsound, htime⟩
  · exact htime
  · rw [htime] at hc
    rcases hsound.mem_text hc with hc | hc
    · rw [hdigit] at hc
      cases hc
    · exact absurd hc hother

example : ["9", "9am", "09 00 pm", "0900pm", "Morning "].map normalizeTime
    = ["9:00", "9:00 AM", "9:00 PM", "9:00 PM", "Morning"] := by decide +kernel

end Daybook.Entry
