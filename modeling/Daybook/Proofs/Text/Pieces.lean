/-
Trimmed texts, and texts that are joined and cut apart again.

A trimmed text is one that neither begins nor ends with a blank, and it is
the only one that trimming leaves alone (`trim_eq_self_iff`).  Pieces that
hold no separator survive being joined and cut (`cut_append_separator`),
so comma-separated names that are trimmed themselves are read back one by
one, whatever blanks stand behind the commas (`cells_intercalate`).
-/
import Daybook.Text.Pieces
import Mathlib.Data.List.DropRight

namespace Daybook.Text

-- ================================================== character by character

/-- What holds of all characters of a text is decided one by one, not over
all characters there are. -/
theorem forall_mem_of_all {p : Char → Prop} [DecidablePred p] {cs : List Char}
    (h : cs.all (fun c => decide (p c)) = true) : ∀ c ∈ cs, p c := fun c hc =>
  of_decide_eq_true (List.all_eq_true.mp h c hc)

theorem forall_mem_of_option {p : Char → Prop} [DecidablePred p] {found : Option Char}
    (h : found.all (fun c => decide (p c)) = true) : ∀ c ∈ found, p c := fun c hc => by
  cases hc
  exact of_decide_eq_true h

theorem exists_mem_of_option {p : Char → Prop} [DecidablePred p] {found : Option Char}
    (h : found.any (fun c => decide (p c)) = true) : ∃ c ∈ found, p c := by
  cases found with
  | none => cases h
  | some c => exact ⟨c, rfl, of_decide_eq_true h⟩

-- ============================================================ trimming

theorem trim_trim (cs : List Char) : trim (trim cs) = trim cs := by
  have hend : trimEnd (trim cs) = trim cs := List.rdropWhile_idempotent isBlank (skipBlank cs)
  have hstart : skipBlank (trim cs) = trim cs := by
    unfold skipBlank
    rw [List.dropWhile_eq_self_iff]
    intro hpos
    have hpart : trim cs <+: skipBlank cs := List.rdropWhile_prefix isBlank _
    rw [hpart.getElem hpos]
    exact List.dropWhile_get_zero_not isBlank cs _
  show trimEnd (skipBlank (trim cs)) = trim cs
  rw [hstart, hend]

theorem trimmed_trimmed (s : String) : trimmed (trimmed s) = trimmed s := by
  unfold trimmed
  rw [String.toList_ofList, trim_trim]

theorem skipBlank_of_not_blank {c : Char} (h : isBlank c = false) (cs : List Char) :
    skipBlank (c :: cs) = c :: cs :=
  List.dropWhile_cons_of_neg (by rw [h]; exact Bool.false_ne_true)

/-- Nothing is skipped of a text that begins with no blank. -/
theorem skipBlank_eq_self {cs : List Char} (h : ∀ c ∈ cs.head?, isBlank c = false) :
    skipBlank cs = cs := by
  cases cs with
  | nil => rfl
  | cons c cs => exact skipBlank_of_not_blank (h c rfl) cs

theorem skipBlank_blank {c : Char} (h : isBlank c = true) (cs : List Char) :
    skipBlank (c :: cs) = skipBlank cs := List.dropWhile_cons_of_pos h

theorem trim_blank {c : Char} (h : isBlank c = true) (cs : List Char) : trim (c :: cs) = trim cs := by
  unfold trim
  rw [skipBlank_blank h]

theorem trim_concat_blank {c : Char} (h : isBlank c = true) (cs : List Char) :
    trim (cs ++ [c]) = trim cs := by
  have hend (ds : List Char) : trimEnd (ds ++ [c]) = trimEnd ds := List.rdropWhile_concat_pos isBlank ds c h
  unfold trim
  rw [skipBlank, List.dropWhile_append]
  split
  · next hblank =>
      rw [skipBlank, List.isEmpty_iff.mp hblank, List.dropWhile_cons_of_pos h]
      rfl
  · exact hend _

theorem trimEnd_concat {c : Char} (h : isBlank c = false) (cs : List Char) :
    trimEnd (cs ++ [c]) = cs ++ [c] := by
  unfold trimEnd
  rw [List.reverse_append, List.reverse_singleton, List.singleton_append,
    List.dropWhile_cons_of_neg (by rw [h]; exact Bool.false_ne_true), List.reverse_cons,
    List.reverse_reverse]

/-- A text that begins and ends with other characters is not trimmed. -/
theorem trim_between {first last : Char} (hfirst : isBlank first = false)
    (hlast : isBlank last = false) (cs : List Char) :
    trim (first :: (cs ++ [last])) = first :: (cs ++ [last]) := by
  unfold trim
  rw [skipBlank_of_not_blank hfirst, ← List.cons_append, trimEnd_concat hlast]

/-- What is left after trimming begins with no blank. -/
theorem head_trim {cs : List Char} {c : Char} (h : (trim cs).head? = some c) :
    isBlank c = false := by
  obtain ⟨rest, hrest⟩ : trim cs <+: skipBlank cs := List.rdropWhile_prefix isBlank _
  have hhead : (skipBlank cs).head? = some c := by
    rw [← hrest, List.head?_append, h]
    rfl
  have hnot := List.head?_dropWhile_not isBlank cs
  unfold skipBlank at hhead
  rw [hhead] at hnot
  exact hnot

/-- What is left after trimming ends in no blank. -/
theorem last_trim {cs : List Char} {c : Char} (h : (trim cs).getLast? = some c) :
    isBlank c = false := by
  obtain ⟨hne, rfl⟩ := List.mem_getLast?_eq_getLast h
  exact Bool.eq_false_iff.mpr (List.rdropWhile_last_not isBlank (skipBlank cs) hne)

/-- A text is left alone by trimming exactly if it neither begins nor ends
with a blank. -/
theorem trim_eq_self_iff (cs : List Char) : trim cs = cs ↔
    (∀ c ∈ cs.head?, isBlank c = false) ∧ ∀ c ∈ cs.getLast?, isBlank c = false := by
  constructor
  · intro h
    exact ⟨fun c hc => head_trim (h.symm ▸ hc), fun c hc => last_trim (h.symm ▸ hc)⟩
  · rintro ⟨hfirst, hlast⟩
    rw [trim, skipBlank_eq_self hfirst]
    rcases List.eq_nil_or_concat cs with rfl | ⟨begin, last, rfl⟩
    · rfl
    · rw [List.concat_eq_append] at hlast ⊢
      exact trimEnd_concat (hlast last (by rw [List.getLast?_concat]; rfl)) begin

/-- Blanks that were skipped need no trimming. -/
theorem trim_skipBlank (cs : List Char) : trim (skipBlank cs) = trim cs := by
  have htwice : skipBlank (skipBlank cs) = skipBlank cs := List.dropWhile_idempotent _ _
  rw [trim, htwice]
  rfl

/-- Only blanks are dropped at the end of a text. -/
theorem exists_trimEnd (cs : List Char) : ∃ gap, cs = trimEnd cs ++ gap ∧ ∀ c ∈ gap, isBlank c = true :=
  ⟨cs.rtakeWhile isBlank, List.rdropWhile_append_rtakeWhile.symm, fun _ hc => List.mem_rtakeWhile_imp hc⟩

/-- Only blanks are dropped around a text. -/
theorem exists_trim (cs : List Char) :
    ∃ before after, cs = before ++ trim cs ++ after ∧ ∀ c ∈ before ++ after, isBlank c = true := by
  obtain ⟨after, hafter, hblank⟩ := exists_trimEnd (skipBlank cs)
  refine ⟨cs.takeWhile isBlank, after, ?_, fun c hc => ?_⟩
  · have hcs : cs = cs.takeWhile isBlank ++ skipBlank cs := List.takeWhile_append_dropWhile.symm
    rw [List.append_assoc, trim, ← hafter]
    exact hcs
  · rcases List.mem_append.mp hc with hc | hc
    · exact List.all_eq_true.mp List.all_takeWhile c hc
    · exact hblank c hc

theorem mem_of_mem_trim {cs : List Char} {c : Char} (h : c ∈ trim cs) : c ∈ cs := by
  obtain ⟨before, after, hcs, -⟩ := exists_trim cs
  rw [hcs]
  exact List.mem_append_left _ (List.mem_append_right _ h)

/-- A text that begins with no blank keeps its first character. -/
theorem exists_trim_cons {c : Char} (h : isBlank c = false) (cs : List Char) :
    ∃ more gap, trim (c :: cs) = c :: more ∧ cs = more ++ gap ∧ ∀ d ∈ gap, isBlank d = true := by
  obtain ⟨gap, hgap, hblank⟩ := exists_trimEnd (c :: cs)
  unfold trim
  rw [skipBlank_of_not_blank h]
  cases hend : trimEnd (c :: cs) with
  | nil =>
      rw [hend, List.nil_append] at hgap
      rw [hblank c (hgap ▸ List.mem_cons_self)] at h
      cases h
  | cons d more =>
      rw [hend, List.cons_append] at hgap
      obtain ⟨rfl, hcs⟩ := List.cons.inj hgap
      exact ⟨more, gap, rfl, hcs, hblank⟩

/-- Something is left of a text that is not blank. -/
theorem trim_ne_nil {cs : List Char} {c : Char} (hc : c ∈ cs) (h : isBlank c = false) : trim cs ≠ [] := by
  intro hnil
  obtain ⟨before, after, hcs, hblank⟩ := exists_trim cs
  rw [hnil, List.append_nil] at hcs
  rw [hblank c (hcs ▸ hc)] at h
  cases h

/-- Nothing but the end of a text is trimmed at its end. -/
theorem exists_trim_append {front : List Char} (hfirst : ∀ c ∈ front.head?, isBlank c = false)
    (hlast : ∀ c ∈ front.getLast?, isBlank c = false) (hne : front ≠ []) (rest : List Char) :
    ∃ tail, trim (front ++ rest) = front ++ tail := by
  have hskip : skipBlank (front ++ rest) = front ++ rest := by
    apply skipBlank_eq_self
    rwa [List.head?_append_of_ne_nil _ hne]
  have hkeep : trimEnd front = front := by
    obtain ⟨begin, last, hconcat⟩ := (List.eq_nil_or_concat front).resolve_left hne
    rw [List.concat_eq_append] at hconcat
    rw [hconcat]
    exact trimEnd_concat (hlast last (by rw [hconcat, List.getLast?_concat]; rfl)) begin
  unfold trim
  rw [hskip]
  unfold trimEnd at hkeep ⊢
  rw [List.reverse_append, List.dropWhile_append]
  split
  · exact ⟨[], by rw [hkeep, List.append_nil]⟩
  · exact ⟨_, by rw [List.reverse_append, List.reverse_reverse]⟩

/-- Blanks in front of a text are trimmed away. -/
theorem trim_append_of_blank {cs : List Char} (h : trim cs = []) (ds : List Char) :
    trim (cs ++ ds) = trim ds := by
  have hblank : ∀ c ∈ cs, isBlank c = true := fun c hc => by
    cases hc' : isBlank c with
    | true => rfl
    | false => exact absurd h (trim_ne_nil hc hc')
  unfold trim skipBlank
  rw [List.dropWhile_append_of_pos hblank]

/-- A text that is not blank keeps all but the blanks at its head, if what
follows it needs no trimming. -/
theorem trim_append_of_trimmed {cs ds : List Char} (h : skipBlank cs ≠ []) (hds : trim ds = ds)
    (hne : ds ≠ []) : trim (cs ++ ds) = skipBlank cs ++ ds := by
  have hskip : skipBlank (cs ++ ds) = skipBlank cs ++ ds := by
    unfold skipBlank at h ⊢
    rw [List.dropWhile_append, if_neg (fun hnil => h (List.isEmpty_iff.mp hnil))]
  rw [← trim_skipBlank, hskip]
  refine (trim_eq_self_iff _).mpr ⟨fun c hc => ?_, fun c hc => ?_⟩
  · rw [List.head?_append_of_ne_nil _ h] at hc
    have hnot := List.head?_dropWhile_not isBlank cs
    unfold skipBlank at hc
    rwa [hc] at hnot
  · rw [List.getLast?_append_of_ne_nil _ hne] at hc
    exact ((trim_eq_self_iff ds).mp hds).2 c hc

-- ================================================= cutting and joining

/-- Cutting behind a separator cuts the two sides apart. -/
theorem cut_append_separator (separator : Char) (cs ds : List Char) :
    cut separator (cs ++ separator :: ds) = cut separator cs ++ cut separator ds := by
  induction cs with
  | nil => exact cut_separator separator ds
  | cons c cs ih =>
      by_cases hc : c = separator
      · rw [hc, List.cons_append, cut_separator, cut_separator, ih]
        rfl
      · cases hcut : cut separator cs with
        | nil => exact absurd hcut (cut_ne_nil separator cs)
        | cons piece pieces =>
            rw [hcut] at ih
            rw [List.cons_append, cut_of_ne hc hcut, cut_of_ne hc ih]
            rfl

/-- A text without the separator is one piece. -/
theorem cut_of_not_mem {separator : Char} {cs : List Char} (h : separator ∉ cs) :
    cut separator cs = [cs] := by
  induction cs with
  | nil => rfl
  | cons c cs ih =>
      rw [List.mem_cons, not_or] at h
      exact cut_of_ne (Ne.symm h.1) (ih h.2)

/-- A text without the separator goes on the last piece. -/
theorem cut_append_of_not_mem {separator : Char} {cs ds last : List Char}
    {front : List (List Char)} (hcut : cut separator cs = front ++ [last]) (h : separator ∉ ds) :
    cut separator (cs ++ ds) = front ++ [last ++ ds] := by
  induction cs generalizing front last with
  | nil =>
      cases front with
      | nil =>
          cases hcut
          exact cut_of_not_mem h
      | cons first front => cases front <;> cases hcut
  | cons c cs ih =>
      by_cases hc : c = separator
      · rw [hc, cut_separator] at hcut
        rw [hc, List.cons_append, cut_separator]
        cases front with
        | nil => exact absurd (List.cons.inj hcut).2 (cut_ne_nil separator cs)
        | cons first front =>
            obtain ⟨rfl, hrest⟩ := List.cons.inj hcut
            rw [ih hrest]
            rfl
      · cases hpieces : cut separator cs with
        | nil => exact absurd hpieces (cut_ne_nil separator cs)
        | cons piece pieces =>
            rw [cut_of_ne hc hpieces] at hcut
            cases front with
            | nil =>
                obtain ⟨rfl, rfl⟩ := List.cons.inj hcut
                exact cut_of_ne hc (@ih piece [] hpieces)
            | cons first front =>
                obtain ⟨rfl, rfl⟩ := List.cons.inj hcut
                exact cut_of_ne hc (@ih last (piece :: front) hpieces)

/-- Pieces without the separator are told apart in the text that joins
them. -/
theorem cut_intercalate_separator {separator : Char} {pieces : List (List Char)} (hne : pieces ≠ [])
    (h : ∀ piece ∈ pieces, separator ∉ piece) : cut separator ([separator].intercalate pieces) = pieces := by
  induction pieces with
  | nil => exact absurd rfl hne
  | cons first pieces ih =>
      have hfirst := cut_of_not_mem (h first List.mem_cons_self)
      cases pieces with
      | nil => rw [List.intercalate_singleton, hfirst]
      | cons second pieces =>
          rw [List.intercalate_cons_cons, List.append_assoc, List.singleton_append, cut_append_separator,
            hfirst, ih (List.cons_ne_nil _ _) fun piece hmem => h piece (List.mem_cons_of_mem first hmem)]
          rfl

/-- A piece is made of the text's own characters. -/
theorem mem_of_mem_cut {separator : Char} {cs piece : List Char} (h : piece ∈ cut separator cs) {c : Char}
    (hc : c ∈ piece) : c ∈ cs := by
  induction cs generalizing piece with
  | nil =>
      rw [cut, List.mem_singleton] at h
      rwa [h] at hc
  | cons d cs ih =>
      by_cases hd : d = separator
      · rw [hd, cut_separator, List.mem_cons] at h
        rcases h with rfl | h
        · cases hc
        · exact List.mem_cons_of_mem d (ih h hc)
      · obtain ⟨first, pieces, hcut⟩ := List.exists_cons_of_ne_nil (cut_ne_nil separator cs)
        rw [cut_of_ne hd hcut, List.mem_cons] at h
        rcases h with rfl | h
        · rcases List.mem_cons.mp hc with rfl | hc
          · exact List.mem_cons_self
          · exact List.mem_cons_of_mem d (ih (hcut ▸ List.mem_cons_self) hc)
        · exact List.mem_cons_of_mem d (ih (hcut ▸ List.mem_cons_of_mem first h) hc)

/-- A text has one way to be parted at its first separator. -/
theorem append_separator_inj {separator : Char} {cs cs' ds ds' : List Char} (h : separator ∉ cs)
    (h' : separator ∉ cs') (hsame : cs ++ separator :: ds = cs' ++ separator :: ds') :
    cs = cs' ∧ ds = ds' := by
  have hcut := congrArg (cut separator) hsame
  rw [cut_append_separator, cut_append_separator, cut_of_not_mem h, cut_of_not_mem h'] at hcut
  obtain ⟨rfl, -⟩ := List.cons.inj hcut
  exact ⟨rfl, (List.cons.inj (List.append_cancel_left hsame)).2⟩

/-- A part with one separator stands in a text around the first separator or
behind it. -/
theorem infix_append_separator {separator : Char} {before behind front rest : List Char}
    (hbefore : separator ∉ before) (hfront : separator ∉ front) :
    before ++ separator :: behind <:+: front ++ separator :: rest
      ↔ before <:+ front ∧ behind <+: rest ∨ before ++ separator :: behind <:+: rest := by
  constructor
  · rintro ⟨first, last, hsame⟩
    rw [List.append_assoc, List.append_assoc, List.cons_append] at hsame
    by_cases hfirst : separator ∈ first
    · -- the first separator is passed before the part begins
      obtain ⟨start, more, rfl, hstart⟩ := List.eq_append_cons_of_mem hfirst
      rw [List.append_assoc, List.cons_append] at hsame
      obtain ⟨-, hrest⟩ := append_separator_inj hstart hfront hsame
      refine .inr ⟨more, last, ?_⟩
      rw [← hrest, List.append_assoc, List.append_assoc, List.cons_append]
    · rw [← List.append_assoc] at hsame
      have hmem : separator ∉ first ++ before := by
        rw [List.mem_append, not_or]
        exact ⟨hfirst, hbefore⟩
      obtain ⟨rfl, rfl⟩ := append_separator_inj hmem hfront hsame
      exact .inl ⟨List.suffix_append first before, List.prefix_append behind last⟩
  · rintro (⟨⟨first, rfl⟩, ⟨last, rfl⟩⟩ | hrest)
    · exact ⟨first, last, by simp⟩
    · exact hrest.trans ((List.suffix_cons separator rest).trans
        (List.suffix_append front (separator :: rest))).isInfix

/-- A part without the separator that ends a text stands behind the
separator. -/
theorem suffix_append_separator {separator : Char} {part front rest : List Char}
    (hpart : separator ∉ part) : part <:+ front ++ separator :: rest ↔ part <:+ rest := by
  constructor
  · intro h
    rcases List.suffix_or_suffix_of_suffix h (List.suffix_append front (separator :: rest))
      with hend | hbegin
    · rcases List.suffix_cons_iff.mp hend with rfl | hend
      · exact absurd List.mem_cons_self hpart
      · exact hend
    · exact absurd (hbegin.mem List.mem_cons_self) hpart
  · intro h
    exact h.trans ((List.suffix_cons separator rest).trans
      (List.suffix_append front (separator :: rest)))

/-- A part without the separator that stands in a text stands on one side of
the separator. -/
theorem infix_of_append_separator {separator : Char} {part front rest : List Char}
    (hpart : separator ∉ part) (h : part <:+: front ++ separator :: rest) :
    part <:+: front ∨ part <:+: rest := by
  obtain ⟨before, behind, hsame⟩ := h
  rcases List.append_eq_append_iff.mp hsame with ⟨more, hfront, -⟩ | ⟨more, hfront, hrest⟩
  · exact .inl ⟨before, more, hfront.symm⟩
  · cases more with
    | nil => exact .inl ⟨before, [], by rw [hfront, List.append_nil, List.append_nil]⟩
    | cons c more =>
        obtain ⟨rfl, rfl⟩ := List.cons.inj hrest
        have hend : part <:+ more :=
          (suffix_append_separator hpart).mp (hfront ▸ List.suffix_append before part)
        obtain ⟨first, rfl⟩ := hend
        exact .inr ⟨first, behind, rfl⟩

/-- A blank before a text adds no part that begins with another character. -/
theorem infix_of_blank {part cs : List Char} (hpart : ∃ c ∈ part.head?, c ≠ ' ')
    (h : part <:+: ' ' :: cs) : part <:+: cs := by
  obtain ⟨c, hc, hne⟩ := hpart
  rcases List.infix_cons_iff.mp h with ⟨rest, hprefix⟩ | hbehind
  · obtain ⟨more, rfl⟩ := List.head?_eq_some_iff.mp hc
    exact absurd (List.cons.inj hprefix).1 hne
  · exact hbehind

/-- The pieces of texts that were joined by a comma and a blank; those
behind a comma still have the blank. -/
theorem cut_intercalate {texts : List (List Char)} (h : ∀ text ∈ texts, ',' ∉ text)
    (first : List Char) (hfirst : ',' ∉ first) :
    cut ',' ([',', ' '].intercalate (first :: texts)) = first :: texts.map (' ' :: ·) := by
  induction texts generalizing first with
  | nil =>
      rw [List.intercalate_singleton]
      exact cut_of_not_mem hfirst
  | cons second texts ih =>
      have hsecond : ',' ∉ ' ' :: second := by
        rw [List.mem_cons, not_or]
        exact ⟨by decide, h second List.mem_cons_self⟩
      have hrest : cut ',' ([',', ' '].intercalate ((' ' :: second) :: texts))
          = (' ' :: second) :: texts.map (' ' :: ·) :=
        ih (fun text hmem => h text (List.mem_cons_of_mem second hmem)) (' ' :: second) hsecond
      have hmove : ' ' :: [',', ' '].intercalate (second :: texts)
          = [',', ' '].intercalate ((' ' :: second) :: texts) := by
        cases texts with
        | nil => rw [List.intercalate_singleton, List.intercalate_singleton]
        | cons third texts =>
            rw [List.intercalate_cons_cons, List.intercalate_cons_cons]
            rfl
      calc cut ',' ([',', ' '].intercalate (first :: second :: texts))
          = cut ',' (first ++ ',' :: ' ' :: [',', ' '].intercalate (second :: texts)) := by
            rw [List.intercalate_cons_cons, List.append_assoc]
            rfl
        _ = first :: cut ',' ([',', ' '].intercalate ((' ' :: second) :: texts)) := by
            rw [cut_append_separator, cut_of_not_mem hfirst, hmove]
            rfl
        _ = first :: (second :: texts).map (' ' :: ·) := by
            rw [hrest]
            rfl

/-- A text that is joined to others stands behind a comma and a blank. -/
theorem intercalate_concat_of_ne_nil {texts : List (List Char)} (hne : texts ≠ []) (last : List Char) :
    [',', ' '].intercalate (texts ++ [last]) = [',', ' '].intercalate texts ++ ',' :: ' ' :: last := by
  induction texts with
  | nil => exact absurd rfl hne
  | cons first texts ih =>
      cases texts with
      | nil => simp
      | cons second texts =>
          have hrest : [',', ' '].intercalate (second :: texts ++ [last])
              = [',', ' '].intercalate (second :: texts) ++ ',' :: ' ' :: last :=
            ih (List.cons_ne_nil second texts)
          rw [List.cons_append] at hrest
          rw [List.cons_append, List.cons_append, List.intercalate_cons_cons, hrest,
            List.intercalate_cons_cons]
          simp only [List.append_assoc]

/-- The last text stands at the end of the line, behind a blank if it is not
the only one. -/
theorem intercalate_concat (texts : List (List Char)) (last : List Char) :
    ∃ front, [',', ' '].intercalate (texts ++ [last]) = front ++ last
      ∧ ∀ c ∈ front.getLast?, c = ' ' := by
  by_cases hne : texts = []
  · subst hne
    rw [List.nil_append, List.intercalate_singleton]
    exact ⟨[], rfl, fun c hc => nomatch hc⟩
  · refine ⟨[',', ' '].intercalate texts ++ [',', ' '], ?_, fun c hc => ?_⟩
    · rw [intercalate_concat_of_ne_nil hne]
      simp
    · simpa using hc.symm

/-- A line of texts, cut within one of them: the texts before the cut stand
before it, joined. -/
theorem exists_intercalate_append (before : List (List Char)) (front rest : List Char)
    (after : List (List Char)) : ∃ more, [',', ' '].intercalate (before ++ (front ++ rest) :: after)
      = [',', ' '].intercalate (before ++ [front]) ++ (rest ++ more) := by
  induction before with
  | nil =>
      cases after with
      | nil => exact ⟨[], by simp⟩
      | cons next after =>
          refine ⟨[',', ' '] ++ [',', ' '].intercalate (next :: after), ?_⟩
          rw [List.nil_append, List.nil_append, List.intercalate_cons_cons, List.intercalate_singleton]
          simp only [List.append_assoc]
  | cons first before ih =>
      obtain ⟨more, hmore⟩ := ih
      obtain ⟨text, texts, htexts⟩ := List.exists_cons_of_ne_nil
        (List.append_ne_nil_of_right_ne_nil before (List.cons_ne_nil (front ++ rest) after))
      obtain ⟨text', texts', htexts'⟩ := List.exists_cons_of_ne_nil
        (List.append_ne_nil_of_right_ne_nil before (List.cons_ne_nil front []))
      rw [htexts, htexts'] at hmore
      refine ⟨more, ?_⟩
      rw [List.cons_append, List.cons_append, htexts, htexts', List.intercalate_cons_cons,
        List.intercalate_cons_cons, hmore]
      simp only [List.append_assoc]

/-- The line that joins texts holds commas, blanks and what the texts
hold. -/
theorem mem_intercalate {texts : List (List Char)} {c : Char}
    (h : c ∈ [',', ' '].intercalate texts) : c = ',' ∨ c = ' ' ∨ ∃ text ∈ texts, c ∈ text := by
  induction texts with
  | nil => cases h
  | cons first texts ih =>
      cases texts with
      | nil =>
          rw [List.intercalate_singleton] at h
          exact .inr (.inr ⟨first, List.mem_cons_self, h⟩)
      | cons second texts =>
          rw [List.intercalate_cons_cons, List.mem_append, List.mem_append] at h
          rcases h with (h | h) | h
          · exact .inr (.inr ⟨first, List.mem_cons_self, h⟩)
          · simp only [List.mem_cons, List.not_mem_nil, or_false] at h
            rcases h with rfl | rfl
            · exact .inl rfl
            · exact .inr (.inl rfl)
          · rcases ih h with rfl | rfl | ⟨text, hmem, hc⟩
            · exact .inl rfl
            · exact .inr (.inl rfl)
            · exact .inr (.inr ⟨text, List.mem_cons_of_mem first hmem, hc⟩)

/-- The cells of the line that joins texts without commas are these texts,
trimmed. -/
theorem cells_intercalate {texts : List (List Char)} (hne : texts ≠ [])
    (h : ∀ text ∈ texts, ',' ∉ text) : cells ([',', ' '].intercalate texts) = texts.map trim := by
  cases texts with
  | nil => exact absurd rfl hne
  | cons first texts =>
      have htrim : trim ∘ (' ' :: ·) = trim := funext fun text => trim_blank (by decide) text
      unfold cells
      rw [cut_intercalate (fun text hmem => h text (List.mem_cons_of_mem first hmem)) first
          (h first List.mem_cons_self), List.map_cons, List.map_map, htrim, List.map_cons]

/-- A blank before the first cell is trimmed off it. -/
theorem cells_blank (cs : List Char) : cells (' ' :: cs) = cells cs := by
  obtain ⟨piece, pieces, hcut⟩ := List.exists_cons_of_ne_nil (cut_ne_nil ',' cs)
  unfold cells
  rw [cut_of_ne (by decide) hcut, hcut, List.map_cons, List.map_cons, trim_blank (by decide)]

/-- Lists of texts without commas are told apart by the lines that join
them. -/
theorem intercalate_inj {texts others : List (List Char)} (hne : texts ≠ []) (hne' : others ≠ [])
    (h : ∀ text ∈ texts, ',' ∉ text) (h' : ∀ text ∈ others, ',' ∉ text)
    (hsame : [',', ' '].intercalate texts = [',', ' '].intercalate others) : texts = others := by
  cases texts with
  | nil => exact absurd rfl hne
  | cons first texts =>
      cases others with
      | nil => exact absurd rfl hne'
      | cons first' others =>
          have hcut := congrArg (cut ',') hsame
          rw [cut_intercalate (fun text hmem => h text (List.mem_cons_of_mem first hmem)) first
              (h first List.mem_cons_self),
            cut_intercalate (fun text hmem => h' text (List.mem_cons_of_mem first' hmem)) first'
              (h' first' List.mem_cons_self)] at hcut
          obtain ⟨rfl, hrest⟩ := List.cons.inj hcut
          have hinj : Function.Injective (fun text : List Char => ' ' :: text) :=
            fun _ _ heq => (List.cons.inj heq).2
          rw [List.map_injective_iff.mpr hinj hrest]

end Daybook.Text
