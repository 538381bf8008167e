/-
Where the line of an event is cut.

The reader goes through a line from left to right and at each character
behind the first looks for blanks, a dash and something behind the dash.  So
it may meet the dash of the cut already at the blanks before it; the part
before the cut ends there, which is where trimming would end it too
(`cutAtDash_separates`).  A dash that the reader meets has something behind
it (`exists_of_afterDash`), and so the cut is at the first dash with
something on both sides (`read_at_first_dash`).

The time before the cut is in one spelling and holds no dash but perhaps as
its first character (`Event.Timed`), so an event that is shown is cut at the
dash that it is shown with (`read_shown`).
-/
import Mathlib.Data.Nat.Find
import Daybook.Entry.Event
import Daybook.Proofs.Entry.Time

namespace Daybook.Entry

open Text

variable {c dash : Char} {cs front behind before part rest : List Char}

-- ============================================================== one dash

theorem isDash_iff : isDash c = true ↔ c ∈ ['-', '–', '—'] := by
  simp [isDash, or_assoc]

/-- A dash is no blank, and no clock is spelled with it. -/
theorem plain_of_isDash (h : isDash c = true) :
    isBlank c = false ∧ isDigit c = false ∧ c ∉ [':', ' ', 'A', 'P', 'M'] := by
  have hall : ∀ c ∈ ['-', '–', '—'],
      isBlank c = false ∧ isDigit c = false ∧ c ∉ [':', ' ', 'A', 'P', 'M'] :=
    forall_mem_of_all (by decide +kernel)
  exact hall c (isDash_iff.mp h)

theorem afterDash_blank (h : isBlank c = true) (cs : List Char) : afterDash (c :: cs) = afterDash cs := by
  unfold afterDash
  rw [skipBlank_blank h]

theorem afterDash_other (hblank : isBlank c = false) (hdash : isDash c = false) (cs : List Char) :
    afterDash (c :: cs) = none := by
  unfold afterDash
  rw [skipBlank_of_not_blank hblank]
  dsimp only
  rw [hdash, if_neg Bool.false_ne_true]

theorem afterDash_dash (h : isDash c = true) (hsome : skipBlank cs ≠ []) (hbreak : '\n' ∉ cs) :
    afterDash (c :: cs) = some (skipBlank cs) := by
  have hempty : (skipBlank cs).isEmpty = false := List.isEmpty_eq_false_iff.mpr hsome
  have hline : (skipBlank cs).contains '\n' = false :=
    Bool.eq_false_iff.mpr fun hmem => hbreak (List.dropWhile_subset _ (List.contains_iff_mem.mp hmem))
  unfold afterDash
  rw [skipBlank_of_not_blank (plain_of_isDash h).1]
  dsimp only
  rw [h, if_pos rfl, hempty, hline, Bool.or_self, if_neg Bool.false_ne_true]

/-- No dash is met within a text without dashes that is not blank. -/
theorem afterDash_append (hdash : ∀ c ∈ part, isDash c = false)
    (hsome : ∃ c ∈ part, isBlank c = false) (rest : List Char) : afterDash (part ++ rest) = none := by
  induction part with
  | nil =>
      obtain ⟨c, hc, -⟩ := hsome
      cases hc
  | cons c part ih =>
      cases hblank : isBlank c with
      | false => exact afterDash_other hblank (hdash c List.mem_cons_self) _
      | true =>
          obtain ⟨d, hd, hplain⟩ := hsome
          have hmem : d ∈ part := by
            rcases List.mem_cons.mp hd with rfl | hmem
            · rw [hblank] at hplain
              cases hplain
            · exact hmem
          rw [List.cons_append, afterDash_blank hblank]
          exact ih (fun e he => hdash e (List.mem_cons_of_mem c he)) ⟨d, hmem, hplain⟩

/-- A dash is met behind blanks. -/
theorem afterDash_gap {gap : List Char} (hgap : ∀ c ∈ gap, isBlank c = true) (hdash : isDash dash = true)
    (hsome : skipBlank behind ≠ []) (hbreak : '\n' ∉ behind) :
    afterDash (gap ++ dash :: behind) = some (skipBlank behind) := by
  induction gap with
  | nil => exact afterDash_dash hdash hsome hbreak
  | cons c gap ih =>
      rw [List.cons_append, afterDash_blank (hgap c List.mem_cons_self)]
      exact ih fun d hd => hgap d (List.mem_cons_of_mem c hd)

/-- A dash that is met has blanks before it and something behind it. -/
theorem exists_of_afterDash {text : List Char} (h : afterDash cs = some text) :
    ∃ gap dash behind, cs = gap ++ dash :: behind ∧ isDash dash = true ∧ behind ≠ [] := by
  unfold afterDash at h
  split at h
  · next dash behind hskip =>
      split at h
      · next hdash =>
          refine ⟨cs.takeWhile isBlank, dash, behind, ?_, hdash, ?_⟩
          · rw [← hskip]
            exact List.takeWhile_append_dropWhile.symm
          · rintro rfl
            cases h
      · cases h
  · cases h

-- =============================================================== the cut

theorem cutAtDash_here {text : List Char} (hbefore : before ≠ []) (h : afterDash cs = some text) :
    cutAtDash before cs = some (before.reverse, text) := by
  cases cs with
  | nil => cases h
  | cons c cs =>
      have hsome : before.isEmpty = false := List.isEmpty_eq_false_iff.mpr hbefore
      rw [cutAtDash, hsome, if_neg Bool.false_ne_true, h]

/-- The reader goes on over a part in which it meets no dash. -/
theorem cutAtDash_append (hbefore : before ≠ []) (hbreak : '\n' ∉ part)
    (h : ∀ tail, tail <:+ part → tail ≠ [] → afterDash (tail ++ rest) = none) :
    cutAtDash before (part ++ rest) = cutAtDash (part.reverse ++ before) rest := by
  induction part generalizing before with
  | nil => rfl
  | cons c part ih =>
      rw [List.mem_cons, not_or] at hbreak
      have hsome : before.isEmpty = false := List.isEmpty_eq_false_iff.mpr hbefore
      have hhere : afterDash (c :: (part ++ rest)) = none :=
        h (c :: part) (List.suffix_refl _) (List.cons_ne_nil c part)
      have hbehind : cutAtDash (c :: before) (part ++ rest)
          = cutAtDash (part.reverse ++ (c :: before)) rest :=
        ih (List.cons_ne_nil c before) hbreak.2
          fun tail htail => h tail (htail.trans (List.suffix_cons c part))
      rw [List.cons_append, cutAtDash, hsome, if_neg Bool.false_ne_true, hhere]
      dsimp only
      rw [if_neg (Ne.symm hbreak.1), hbehind, List.reverse_cons, List.append_assoc]
      rfl

/-- Nothing can be cut off before the second character. -/
theorem cutAtDash_nil (hc : c ≠ '\n') (cs : List Char) : cutAtDash [] (c :: cs) = cutAtDash [c] cs := by
  rw [cutAtDash, List.isEmpty_nil, if_pos rfl]
  dsimp only
  rw [if_neg hc]

/-- A dash in a line with something on both sides, and no other dash before
it but perhaps as the first character. -/
structure Separates (front : List Char) (dash : Char) (behind : List Char) : Prop where
  dash : isDash dash = true
  front_ne : front ≠ []
  behind_ne : behind ≠ []
  other : ∀ c ∈ front.tail, isDash c = false

/-- A line is cut where the blanks before its separating dash begin. -/
theorem cutAtDash_separates (h : Separates front dash behind)
    (hfirst : ∀ c ∈ front.head?, isBlank c = false) (hsome : skipBlank behind ≠ [])
    (hbreak : '\n' ∉ front ++ dash :: behind) :
    cutAtDash [] (front ++ dash :: behind) = some (trim front, skipBlank behind) := by
  obtain ⟨first, more, rfl⟩ := List.exists_cons_of_ne_nil h.front_ne
  have hplain : isBlank first = false := hfirst first rfl
  have hnot : '\n' ∉ first :: more := fun hmem => hbreak (List.mem_append_left _ hmem)
  obtain ⟨middle, gap, hkeep, rfl, hgap⟩ := exists_trim_cons hplain more
  have hmet : afterDash (gap ++ dash :: behind) = some (skipBlank behind) :=
    afterDash_gap hgap h.dash hsome fun hmem =>
      hbreak (List.mem_append_right _ (List.mem_cons_of_mem _ hmem))
  rw [hkeep, List.cons_append, cutAtDash_nil (fun hc => hnot (hc ▸ List.mem_cons_self)),
    List.append_assoc, cutAtDash_append (List.cons_ne_nil _ _) ?_ fun tail htail hne => ?_]
  · rw [cutAtDash_here (List.append_ne_nil_of_right_ne_nil _ (List.cons_ne_nil _ _)) hmet,
      List.reverse_append, List.reverse_reverse, List.reverse_singleton, List.singleton_append]
  · exact fun hmem => hnot (List.mem_cons_of_mem _ (List.mem_append_left _ hmem))
  · -- what is left of the trimmed part does not end in a blank
    obtain ⟨last, hlast⟩ : ∃ last, tail.getLast? = some last :=
      Option.ne_none_iff_exists'.mp fun hnone => hne (List.getLast?_eq_none_iff.mp hnone)
    have hend : (trim (first :: (middle ++ gap))).getLast? = some last := by
      obtain ⟨passed, rfl⟩ := htail
      rw [hkeep, ← List.cons_append, List.getLast?_append_of_ne_nil _ hne, hlast]
    have hother : ∀ c ∈ tail, isDash c = false := fun c hc =>
      h.other c (List.mem_append_left _ (htail.mem hc))
    exact afterDash_append hother ⟨last, List.mem_of_getLast? hlast, last_trim hend⟩ _

-- ============================================================== the line

/-- An event is read from the trimmed line only. -/
theorem read_trimmed (s : String) : Event.read (trimmed s) = Event.read s := by
  unfold Event.read
  rw [toList_trimmed, trim_trim]

/-- A trimmed line has no blank before the part in front of a dash. -/
theorem head_of_separates {text : List Char} (hline : trim text = front ++ dash :: behind)
    (h : Separates front dash behind) : ∀ c ∈ front.head?, isBlank c = false := by
  intro c hc
  have hhead : (trim text).head? = some c := by
    rw [hline, List.head?_append_of_ne_nil _ h.front_ne]
    exact hc
  exact head_trim hhead

/-- A line with a separating dash is an event at that dash. -/
theorem read_separates {s : String} (hline : trim s.toList = front ++ dash :: behind)
    (h : Separates front dash behind) (hbreak : '\n' ∉ s.toList) :
    Event.read s = ⟨normalizeTime (String.ofList (trim front)), String.ofList (trim behind)⟩
      ∧ trim front ≠ [] ∧ trim behind ≠ [] := by
  have hfirst := head_of_separates hline h
  have hlast : ∀ c ∈ behind.getLast?, isBlank c = false := by
    intro c hc
    have hend : (trim s.toList).getLast? = some c := by
      rw [hline, List.getLast?_append_of_ne_nil _ (List.cons_ne_nil _ _), List.getLast?_cons, hc]
      rfl
    exact last_trim hend
  have hfront : trim front ≠ [] := by
    obtain ⟨first, more, rfl⟩ := List.exists_cons_of_ne_nil h.front_ne
    exact trim_ne_nil List.mem_cons_self (hfirst first rfl)
  have hbehind : trim behind ≠ [] := by
    obtain ⟨begin, last, rfl⟩ := (List.eq_nil_or_concat behind).resolve_left h.behind_ne
    rw [List.concat_eq_append] at hlast ⊢
    exact trim_ne_nil (List.mem_append_right _ List.mem_cons_self)
      (hlast last (by rw [List.getLast?_concat]; rfl))
  have hskip : skipBlank behind ≠ [] := fun hnil => hbehind (by rw [trim, hnil]; rfl)
  have hline' : '\n' ∉ front ++ dash :: behind := fun hmem => hbreak (mem_of_mem_trim (hline ▸ hmem))
  refine ⟨?_, hfront, hbehind⟩
  unfold Event.read
  dsimp only
  rw [hline, cutAtDash_separates h hfirst hskip hline']
  dsimp only
  rw [trim_trim, trim_skipBlank]

/-- Whether a dash stands at a position of a line, with something before it
and something behind it. -/
def DashAt (text : List Char) (i : Nat) : Prop :=
  1 ≤ i ∧ i + 1 < text.length ∧ ∃ dash ∈ ['-', '–', '—'], text[i]? = some dash

theorem dashAt_iff {text : List Char} {i : Nat} :
    DashAt text i ↔ 1 ≤ i ∧ i + 1 < text.length ∧ text[i]?.any isDash = true := by
  unfold DashAt
  rw [Option.any_eq_true]
  simp only [isDash_iff, and_comm]

instance (text : List Char) (i : Nat) : Decidable (DashAt text i) := decidable_of_iff _ dashAt_iff.symm

/-- The first such dash separates the line. -/
theorem exists_separates {i : Nat} (h : DashAt cs i) (hleast : ∀ j < i, ¬DashAt cs j) :
    ∃ dash, cs = cs.take i ++ dash :: cs.drop (i + 1) ∧ Separates (cs.take i) dash (cs.drop (i + 1)) := by
  obtain ⟨hlow, hhigh, dash, hdash, hat⟩ := h
  obtain ⟨hi, hget⟩ := List.getElem?_eq_some_iff.mp hat
  refine ⟨dash, ?_, isDash_iff.mpr hdash, ?_, ?_, fun c hc => ?_⟩
  · rw [← hget, ← List.drop_eq_getElem_cons hi, List.take_append_drop]
  · rw [← List.length_pos_iff, List.length_take]
    omega
  · rw [← List.length_pos_iff, List.length_drop]
    omega
  · obtain ⟨j, hj⟩ := List.mem_iff_getElem?.mp hc
    rw [List.getElem?_tail] at hj
    have hlt : j + 1 < i := by
      have hlength := (List.getElem?_eq_some_iff.mp hj).1
      rw [List.length_take] at hlength
      omega
    rw [List.getElem?_take_of_lt hlt] at hj
    rw [Bool.eq_false_iff]
    exact fun hc => hleast (j + 1) hlt ⟨by omega, by omega, c, isDash_iff.mp hc, hj⟩

/-- A line without such a dash is not cut. -/
theorem cutAtDash_eq_none (h : ∀ i, ¬DashAt cs i) (hbreak : '\n' ∉ cs) : cutAtDash [] cs = none := by
  cases cs with
  | nil => rfl
  | cons first cs =>
      rw [List.mem_cons, not_or] at hbreak
      rw [cutAtDash_nil (Ne.symm hbreak.1), ← List.append_nil cs,
        cutAtDash_append (List.cons_ne_nil _ _) hbreak.2 fun tail htail _ => ?_]
      · rfl
      · rw [List.append_nil, Option.eq_none_iff_forall_ne_some]
        intro text hmet
        obtain ⟨gap, dash, behind, rfl, hdash, hne⟩ := exists_of_afterDash hmet
        obtain ⟨passed, rfl⟩ := htail
        refine h (passed.length + gap.length + 1) ⟨by omega, ?_, dash, isDash_iff.mp hdash, ?_⟩
        · have hpos := List.length_pos_iff.mpr hne
          simp only [List.length_cons, List.length_append]
          omega
        · rw [List.getElem?_cons_succ, ← List.append_assoc, ← List.length_append,
            List.getElem?_append_right (Nat.le_refl _), Nat.sub_self]
          rfl

theorem read_without_dash {s : String} (h : ∀ i, ¬DashAt (trim s.toList) i) (hbreak : '\n' ∉ s.toList) :
    Event.read s = ⟨"", trimmed s⟩ := by
  unfold Event.read
  dsimp only
  rw [cutAtDash_eq_none h fun hmem => hbreak (mem_of_mem_trim hmem)]
  rfl

/-- Every line has such a dash first, or none. -/
theorem exists_first_dash (line : List Char) :
    (∃ i, DashAt line i ∧ ∀ j < i, ¬DashAt line j) ∨ ∀ i, ¬DashAt line i := by
  classical
  by_cases h : ∃ i, DashAt line i
  · exact .inl ⟨Nat.find h, Nat.find_spec h, fun j hj => Nat.find_min h hj⟩
  · exact .inr fun i hi => h ⟨i, hi⟩

/-- What an event tells of its line: all of it but blanks, and if it has a
time, but for a dash with blanks around it and the spelling of the time. -/
inductive Tells (event : Event) (text : List Char) : Prop
  | whole {before after : List Char} (htime : event.time = "")
    (hblank : ∀ c ∈ before ++ after, isBlank c = true)
    (htext : text = before ++ event.description.toList ++ after) : Tells event text
  | parted {before time gap : List Char} {dash : Char} {more after : List Char}
    (htime : event.time = normalizeTime (String.ofList time)) (hdash : dash ∈ ['-', '–', '—'])
    (hblank : ∀ c ∈ before ++ gap ++ more ++ after, isBlank c = true)
    (htext : text = before ++ time ++ gap ++ dash :: (more ++ event.description.toList ++ after)) :
    Tells event text

/-- The parts of a line that are cut away at its separating dash. -/
theorem tells_separates {s : String} (hline : trim s.toList = front ++ dash :: behind)
    (hdash : isDash dash = true) :
    Tells ⟨normalizeTime (String.ofList (trim front)), String.ofList (trim behind)⟩ s.toList := by
  obtain ⟨before, after, hs, hblank⟩ := exists_trim s.toList
  obtain ⟨early, gap, hfront, hgap⟩ := exists_trim front
  obtain ⟨more, late, hbehind, hmore⟩ := exists_trim behind
  have htext : s.toList = (before ++ early) ++ trim front ++ gap
      ++ dash :: (more ++ (String.ofList (trim behind)).toList ++ (late ++ after)) :=
    calc s.toList = before ++ (front ++ dash :: behind) ++ after := by rw [← hline, ← hs]
      _ = before ++ ((early ++ trim front ++ gap) ++ dash :: (more ++ trim behind ++ late)) ++ after := by
          rw [← hfront, ← hbehind]
      _ = _ := by simp
  refine .parted rfl (isDash_iff.mp hdash) (fun c hc => ?_) htext
  simp only [List.mem_append] at hc hblank hgap hmore
  rcases hc with ((((hc | hc) | hc) | hc) | (hc | hc))
  · exact hblank c (.inl hc)
  · exact hgap c (.inl hc)
  · exact hgap c (.inr hc)
  · exact hmore c (.inl hc)
  · exact hmore c (.inr hc)
  · exact hblank c (.inr hc)

/-- A line is an event at its first dash with something on both sides, and
all description without one. -/
theorem read_at_first_dash {s : String} (hbreak : '\n' ∉ s.toList) :
    (∀ i, DashAt (trim s.toList) i → (∀ j < i, ¬DashAt (trim s.toList) j) →
        Event.read s = ⟨normalizeTime (String.ofList (trim ((trim s.toList).take i))),
          String.ofList (trim ((trim s.toList).drop (i + 1)))⟩
        ∧ (Event.read s).description ≠ "")
      ∧ ((∀ i, ¬DashAt (trim s.toList) i) → Event.read s = ⟨"", trimmed s⟩)
      ∧ Tells (Event.read s) s.toList := by
  refine ⟨fun i hi hleast => ?_, fun hnone => read_without_dash hnone hbreak, ?_⟩
  · obtain ⟨dash, hline, hseparates⟩ := exists_separates hi hleast
    obtain ⟨hread, -, hbehind⟩ := read_separates hline hseparates hbreak
    refine ⟨hread, ?_⟩
    rw [hread]
    exact fun hempty => hbehind (by simpa using congrArg String.toList hempty)
  · rcases exists_first_dash (trim s.toList) with ⟨i, hi, hleast⟩ | hnone
    · obtain ⟨dash, hline, hseparates⟩ := exists_separates hi hleast
      rw [(read_separates hline hseparates hbreak).1]
      exact tells_separates hline hseparates.dash
    · obtain ⟨before, after, hs, hblank⟩ := exists_trim s.toList
      rw [read_without_dash hnone hbreak]
      exact .whole rfl hblank (by rw [toList_trimmed]; exact hs)

/-- A second dash belongs to the description, and a colon to the time. -/
theorem read_lunch : '\n' ∉ "  9:30 am – lunch - late".toList
    ∧ Event.read "  9:30 am – lunch - late" = ⟨"9:30 AM", "lunch - late"⟩ := by
  have hbreak : '\n' ∉ "  9:30 am – lunch - late".toList := by decide
  have hleast : DashAt (trim "  9:30 am – lunch - late".toList) 8
      ∧ ∀ j < 8, ¬DashAt (trim "  9:30 am – lunch - late".toList) j := by decide +kernel
  have hread := ((read_at_first_dash hbreak).1 8 hleast.1 hleast.2).1
  exact ⟨hbreak, hread.trans (by decide +kernel)⟩

-- ========================================================== events shown

/-- An event as it is read from a line with a separating dash: its time is in
one spelling, with no dash but perhaps as the first character. -/
structure Event.Timed (event : Event) : Prop where
  time : normalizeTime event.time = event.time
  time_ne : event.time ≠ ""
  other : ∀ c ∈ event.time.toList.tail, isDash c = false
  description : trimmed event.description = event.description
  description_ne : event.description ≠ ""
  line : '\n' ∉ event.time.toList ++ event.description.toList

/-- A dash is kept in a time only as its first character. -/
theorem not_dash_of_mem_tail (h : ∀ c ∈ front.tail, isDash c = false)
    (hfirst : ∀ c ∈ front.head?, isBlank c = false) :
    ∀ c ∈ (normalizeTime (String.ofList (trim front))).toList.tail, isDash c = false := by
  intro c hc
  rw [Bool.eq_false_iff]
  intro hdash
  obtain ⟨-, hdigit, hother⟩ := plain_of_isDash hdash
  have hkeep := normalizeTime_eq_trimmed (List.mem_of_mem_tail hc) hdigit hother
  rw [hkeep, toList_trimmed, String.toList_ofList, trim_trim] at hc
  cases front with
  | nil => cases hc
  | cons first front =>
      obtain ⟨more, gap, htrim, rfl, -⟩ := exists_trim_cons (hfirst first rfl) front
      rw [htrim] at hc
      exact absurd hdash (Bool.eq_false_iff.mp (h c (List.mem_append_left _ hc)))

/-- The time of a line is on one line too. -/
theorem not_break_of_normalizeTime (h : '\n' ∉ front) :
    '\n' ∉ (normalizeTime (String.ofList (trim front))).toList := by
  intro hmem
  have hkeep := normalizeTime_eq_trimmed hmem (by decide) (by decide)
  rw [hkeep, toList_trimmed, String.toList_ofList, trim_trim] at hmem
  exact h (mem_of_mem_trim hmem)

theorem timed_of_separates {s : String} (hline : trim s.toList = front ++ dash :: behind)
    (h : Separates front dash behind) (hbreak : '\n' ∉ s.toList) : (Event.read s).Timed := by
  obtain ⟨hread, hfront, hbehind⟩ := read_separates hline h hbreak
  have hline' : '\n' ∉ front ++ dash :: behind := fun hmem => hbreak (mem_of_mem_trim (hline ▸ hmem))
  rw [List.mem_append, not_or, List.mem_cons, not_or] at hline'
  rw [hread]
  refine ⟨normalizeTime_normalizeTime _, normalizeTime_ne_empty ?_, ?_, ?_, ?_, ?_⟩
  · exact fun hempty => hfront (by simpa [trimmed, trim_trim] using hempty)
  · exact not_dash_of_mem_tail h.other (head_of_separates hline h)
  · rw [trimmed, String.toList_ofList, trim_trim]
  · exact fun hempty => hbehind (by simpa using hempty)
  · rw [List.mem_append, not_or, String.toList_ofList]
    exact ⟨not_break_of_normalizeTime hline'.1, fun hmem => hline'.2.2 (mem_of_mem_trim hmem)⟩

namespace Event.Timed

variable {event : Event} {separator : String}

theorem trimmed_time (h : event.Timed) : trimmed event.time = event.time := by
  rw [← h.time, trimmed_normalizeTime]

theorem trim_texts (h : event.Timed) : trim event.time.toList = event.time.toList
    ∧ trim event.description.toList = event.description.toList := by
  rw [← toList_trimmed, ← toList_trimmed, h.trimmed_time, h.description]
  exact ⟨rfl, rfl⟩

theorem texts_ne_nil (h : event.Timed) : event.time.toList ≠ [] ∧ event.description.toList ≠ [] :=
  ⟨fun hnil => h.time_ne (String.toList_eq_nil_iff.mp hnil),
    fun hnil => h.description_ne (String.toList_eq_nil_iff.mp hnil)⟩

theorem toList_shown (h : event.Timed) (hseparator : separator.toList = [dash]) :
    (event.shown separator).toList
      = (event.time.toList ++ [' ']) ++ dash :: ' ' :: event.description.toList := by
  have hblank : " ".toList = [' '] := rfl
  unfold Event.shown
  dsimp only
  rw [h.trimmed_time, if_neg h.time_ne]
  simp [hblank, hseparator]

/-- The dash that an event is shown with separates it. -/
theorem separates (h : event.Timed) (hdash : isDash dash = true) :
    Separates (event.time.toList ++ [' ']) dash (' ' :: event.description.toList) := by
  refine ⟨hdash, by simp, by simp, fun c hc => ?_⟩
  rw [List.tail_append_of_ne_nil h.texts_ne_nil.1, List.mem_append, List.mem_singleton] at hc
  rcases hc with hc | rfl
  · exact h.other c hc
  · decide

/-- What is shown of an event is trimmed. -/
theorem trim_shown (h : event.Timed) (hseparator : separator.toList = [dash]) :
    trim (event.shown separator).toList
      = (event.time.toList ++ [' ']) ++ dash :: ' ' :: event.description.toList := by
  obtain ⟨htime, hdescription⟩ := h.trim_texts
  obtain ⟨htime_ne, hdescription_ne⟩ := h.texts_ne_nil
  have hlast : (dash :: ' ' :: event.description.toList).getLast? = event.description.toList.getLast? :=
    List.getLast?_append_of_ne_nil [dash, ' '] hdescription_ne
  rw [h.toList_shown hseparator, trim_eq_self_iff, List.getLast?_append_of_ne_nil _ (List.cons_ne_nil _ _),
    hlast, List.append_assoc, List.head?_append_of_ne_nil _ htime_ne]
  exact ⟨((trim_eq_self_iff _).mp htime).1, ((trim_eq_self_iff _).mp hdescription).2⟩

theorem not_break_shown (h : event.Timed) (hseparator : separator.toList = [dash])
    (hdash : isDash dash = true) : '\n' ∉ (event.shown separator).toList := by
  have hline := h.line
  rw [List.mem_append, not_or] at hline
  rw [h.toList_shown hseparator]
  simp only [List.mem_append, List.mem_cons, List.not_mem_nil, or_false, not_or]
  refine ⟨⟨hline.1, by decide⟩, ?_, by decide, hline.2⟩
  rintro rfl
  exact absurd hdash (by decide)

/-- An event with a time is read back from what is shown of it. -/
theorem read_shown (h : event.Timed) (hseparator : separator.toList = [dash]) (hdash : isDash dash = true) :
    Event.read (event.shown separator) = event := by
  obtain ⟨htime, hdescription⟩ := h.trim_texts
  rw [(read_separates (h.trim_shown hseparator) (h.separates hdash) (h.not_break_shown hseparator hdash)).1,
    trim_concat_blank (by decide), htime, trim_blank (by decide), hdescription, String.ofList_toList,
    String.ofList_toList, h.time]

end Event.Timed

/-- An event is read back from what is shown of it. -/
theorem read_shown {s : String} (hbreak : '\n' ∉ s.toList) {separator : String}
    (hseparator : separator ∈ ["-", "–", "—"]) :
    Event.read ((Event.read s).shown separator) = Event.read s := by
  obtain ⟨dash, htext, hdash⟩ : ∃ dash, separator.toList = [dash] ∧ isDash dash = true := by
    simp only [List.mem_cons, List.not_mem_nil, or_false] at hseparator
    rcases hseparator with rfl | rfl | rfl
    · exact ⟨'-', rfl, rfl⟩
    · exact ⟨'–', rfl, rfl⟩
    · exact ⟨'—', rfl, rfl⟩
  rcases exists_first_dash (trim s.toList) with ⟨i, hi, hleast⟩ | hnone
  · obtain ⟨found, hline, hseparates⟩ := exists_separates hi hleast
    exact (timed_of_separates hline hseparates hbreak).read_shown htext hdash
  · rw [read_without_dash hnone hbreak]
    exact (read_trimmed s).trans (read_without_dash hnone hbreak)

end Daybook.Entry
