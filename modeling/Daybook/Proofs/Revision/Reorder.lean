/-
Reordering: one element of a revision moves, and all others stay in order.

`IsMoved` tells a move by positions of the two lists only, and says the same
of the way back.  It describes one list and no other (`isMoved_iff`), so a
move and the move back are nothing (`moved_moved`).

A line that names two positions in plain numbers is taken with these numbers
(`isMove_moveLine`).  The first character of such a line is a digit, and so
it is no word for leaving.
-/
import Daybook.Proofs.Revision.Edits
import Daybook.Proofs.Text.Digit
import Daybook.Proofs.Text.Scan

namespace Daybook

open Text

-- ====================================================== lists with a move

section lists

variable {α : Type} {source target : Nat} {xs ys : List α}

/-- Whether one element of a list has moved, and that is all. -/
structure IsMoved (source target : Nat) (xs ys : List α) : Prop where
  length : ys.length = xs.length
  element : ys[target]? = xs[source]?
  others : ys.eraseIdx target = xs.eraseIdx source

theorem IsMoved.symm (h : IsMoved source target xs ys) : IsMoved target source ys xs :=
  ⟨h.length.symm, h.element.symm, h.others.symm⟩

/-- A move within a list has one outcome. -/
theorem isMoved_iff (hsource : source < xs.length) (htarget : target < xs.length) :
    IsMoved source target xs ys ↔ ys = moved source target xs := by
  have hothers : target ≤ (xs.eraseIdx source).length := by
    rw [List.length_eraseIdx_of_lt hsource]
    omega
  have hmoved : moved source target xs = (xs.eraseIdx source).insertIdx target xs[source] := by
    rw [← moveElement_eq hsource htarget, moveElement, List.getElem?_eq_getElem hsource]
  rw [hmoved]
  constructor
  · intro h
    have hlt : target < ys.length := h.length ▸ htarget
    have helement : ys[target] = xs[source] := by
      rw [← Option.some_inj, ← List.getElem?_eq_getElem, ← List.getElem?_eq_getElem]
      exact h.element
    rw [← h.others, ← helement]
    exact (List.insertIdx_eraseIdx_getElem hlt).symm
  · rintro rfl
    refine ⟨?_, ?_, List.eraseIdx_insertIdx_self _⟩
    · rw [List.length_insertIdx_of_le_length hothers, List.length_eraseIdx_of_lt hsource]
      omega
    · rw [List.getElem?_insertIdx_self, if_pos hothers, List.getElem?_eq_getElem hsource]

theorem length_moved (hsource : source < xs.length) (htarget : target < xs.length) :
    (moved source target xs).length = xs.length :=
  ((isMoved_iff hsource htarget).mpr rfl).length

/-- Moving an element back restores the list. -/
theorem moved_moved (hsource : source < xs.length) (htarget : target < xs.length) :
    moved target source (moved source target xs) = xs := by
  have hback := ((isMoved_iff hsource htarget).mpr rfl).symm
  have hlength := length_moved hsource htarget
  exact ((isMoved_iff (hlength ▸ htarget) (hlength ▸ hsource)).mp hback).symm

end lists

-- ======================================================= lines for a move

/-- The lines that name two positions in plain numbers. -/
def moveLines (source target : Nat) : List String :=
  [toString source ++ " to " ++ toString target, toString source ++ ", " ++ toString target,
    toString source ++ " " ++ toString target]

variable {source target number : Nat} {line : String}

theorem isPosition_toDigits (h : IsShort number) : IsPosition (Nat.toDigits 10 number) number where
  reads := integer?_toDigits h
  plain _ hc := ⟨(plain_of_isDigit (isDigit_of_mem_toDigits hc)).1,
    (plain_of_isDigit (isDigit_of_mem_toDigits hc)).2.1⟩

/-- Such a line is two numbers with a gap between them. -/
theorem toList_of_mem_moveLines (h : line ∈ moveLines source target) :
    ∃ gap, IsGap gap ∧ line.toList = Nat.toDigits 10 source ++ gap ++ Nat.toDigits 10 target := by
  have hblank : ∀ c ∈ [' '], isBlank c = true := forall_mem_of_all (by decide)
  have hword : IsGap ([' '] ++ 't' :: 'o' :: [' ']) :=
    .word (List.cons_ne_nil _ _) (List.cons_ne_nil _ _) (forall_mem_of_all (by decide))
  have hcomma : IsGap ([] ++ ',' :: [' ']) := .comma hblank
  have hblanks : IsGap [' '] := .blanks (List.cons_ne_nil _ _) hblank
  simp only [moveLines, List.mem_cons, List.not_mem_nil, or_false] at h
  rcases h with rfl | rfl | rfl
  · exact ⟨_, hword, by simp [Nat.toList_repr]⟩
  · exact ⟨_, hcomma, by simp [Nat.toList_repr]⟩
  · exact ⟨_, hblanks, by simp [Nat.toList_repr]⟩

theorem trim_moveLine (h : line ∈ moveLines source target) : trim line.toList = line.toList := by
  obtain ⟨gap, -, hline⟩ := toList_of_mem_moveLines h
  have hplain (number : Nat) {c : Char} (hc : c ∈ Nat.toDigits 10 number) : isBlank c = false :=
    (plain_of_isDigit (isDigit_of_mem_toDigits hc)).1
  rw [hline, trim_eq_self_iff, List.getLast?_append_of_ne_nil _ Nat.toDigits_ne_nil, List.append_assoc,
    List.head?_append_of_ne_nil _ Nat.toDigits_ne_nil]
  exact ⟨fun c hc => hplain source (List.mem_of_mem_head? hc),
    fun c hc => hplain target (List.mem_of_getLast? hc)⟩

theorem isMove_moveLine (hsource : IsShort source) (htarget : IsShort target)
    (h : line ∈ moveLines source target) : IsMove (trim line.toList) source target := by
  obtain ⟨gap, hgap, hline⟩ := toList_of_mem_moveLines h
  have htext := (trim_moveLine h).trans hline
  exact ⟨_, gap, _, htext, isPosition_toDigits hsource, hgap, isPosition_toDigits htarget⟩

/-- A digit is its own lower case. -/
theorem lower_of_isDigit {c : Char} (h : c.isDigit = true) : lower c = [c] := by
  have hrange := toNat_of_isDigit h
  unfold lower
  rw [if_neg (by omega), if_neg (by omega)]
  rcases toLower_cases c with hsame | ⟨hcapital, -⟩
  · rw [hsame]
  · omega

/-- A line that begins with a digit is no word for leaving. -/
theorem isAnswer_moveLine (h : line ∈ moveLines source target) : IsAnswer line := by
  obtain ⟨gap, -, hline⟩ := toList_of_mem_moveLines h
  have hne : Nat.toDigits 10 source ≠ [] := Nat.toDigits_ne_nil
  obtain ⟨c, digits, hdigits⟩ := List.exists_cons_of_ne_nil hne
  have hc : c.isDigit = true := isDigit_of_mem_toDigits (hdigits ▸ List.mem_cons_self)
  have hword : (wordOf line).toList.head? = some c := by
    rw [wordOf, toList_lowercase, toList_trimmed, trim_moveLine h, hline, hdigits, List.cons_append,
      List.cons_append, lowered, List.flatMap_cons, lower_of_isDigit hc]
    rfl
  constructor
  · intro hempty
    rw [wordOf, hempty] at hword
    cases hword
  · intro hcancel
    simp only [cancelWords, List.mem_cons, List.not_mem_nil, or_false] at hcancel
    rcases hcancel with hcancel | hcancel
    · rw [hcancel] at hword
      cases hword
      exact absurd hc (by decide)
    · rw [hcancel] at hword
      cases hword
      exact absurd hc (by decide)

-- ========================================================== the revision

namespace Revision

open Message (reply note)

variable {revision : Revision} {line again : String} {source target : Nat}

/-- The revision that some lines lead to, with the surroundings that each of
them meets. -/
def after (revision : Revision) : List (String × World) → Revision
  | [] => revision
  | (line, world) :: lines => (revision.answer line world).1.state.after lines

/-- Whether a number counts one of the elements. -/
def InRange (revision : Revision) (number : Nat) : Prop :=
  1 ≤ number ∧ number ≤ revision.copy.elements.length

theorem InRange.lt {number : Nat} (h : revision.InRange number) :
    number - 1 < revision.copy.elements.length := by
  obtain ⟨hlow, hhigh⟩ := h
  omega

/-- Whether one element of a revision has moved, and the revision is at the
menu.  Positions are counted from one. -/
def Reordered (revision next : Revision) (source target : Nat) : Prop :=
  ∃ elements, IsMoved (source - 1) (target - 1) revision.copy.elements elements
    ∧ next = { revision.withElements elements with place := .menu }

/-- What is said of an element that was moved. -/
def movedText (kind : Entry.Kind) (source target : Nat) : String :=
  "Moved " ++ kind.singular ++ " " ++ toString source ++ " to position " ++ toString target ++ "."

theorem state_back (revision : Revision) (message : Message) :
    (revision.back message).state = { revision with place := .menu } := rfl

/-- At the reordering, an input that is taken moves an element. -/
theorem Taken.reordered {text : String} {copy : Copy} (h : Taken revision text copy)
    (hplace : revision.place = .reorder) :
    ∃ source target, revision.InRange source ∧ revision.InRange target
      ∧ Reordered revision { revision with copy := copy, place := .menu } source target := by
  cases h with
  | @moved _ source target hsource htarget =>
      refine ⟨source + 1, target + 1, ⟨by omega, hsource⟩, ⟨by omega, htarget⟩, ?_⟩
      exact ⟨_, (isMoved_iff hsource htarget).mpr rfl, rfl⟩
  | _ => simp_all only [reduceCtorEq]

/-- Any line at the reordering is rejected or moves an element. -/
theorem answer_reorder (hplace : revision.place = .reorder) (hline : wordOf line ∉ cancelWords)
    (world : World) : ∃ next messages, revision.answer line world = (.go next (.ok messages), world)
      ∧ (next = revision ∨ ∃ source target, revision.InRange source ∧ revision.InRange target
        ∧ Reordered revision next source target) := by
  have hanswered := revision.answer_answered line world
  generalize revision.answer line world = outcome at hanswered ⊢
  cases hanswered with
  | leaves hword => exact absurd hword hline
  | saves hmenu => simp_all only [reduceCtorEq]
  | passes hpassed =>
      cases hpassed with
      | stays => exact ⟨revision, _, rfl, .inl rfl⟩
      | taken htaken message => exact ⟨_, _, rfl, .inr (htaken.reordered hplace)⟩
      | _ => simp_all only [reduceCtorEq]

/-- A line that names two positions moves the element at the first to the
second. -/
theorem answer_moveLine (hplace : revision.place = .reorder) (hsource : revision.InRange source)
    (htarget : revision.InRange target) (hshort : IsShort source ∧ IsShort target)
    (hline : line ∈ moveLines source target) (world : World) : revision.answer line world
      = (back (revision.withElements (moved (source - 1) (target - 1) revision.copy.elements))
          (reply (movedText revision.kind source target)), world) := by
  have hmove : IsMove (trim (trimmed line).toList) source target := by
    rw [toList_trimmed, trim_trim]
    exact isMove_moveLine hshort.1 hshort.2 hline
  have htake : revision.take (trimmed line) = revision.takeMove (trimmed line) := by
    unfold take
    rw [hplace]
  have hmenu : revision.place ≠ .menu := by
    rw [hplace]
    exact Place.noConfusion
  rw [answer_take (isAnswer_moveLine hline) (fun h => absurd h hmenu) world, htake,
    takeMove_eq revision hmove hsource htarget]
  rfl

/-- The number of the option leads to the reordering. -/
theorem answer_option (hkind : revision.kind ≠ .image) (hplace : revision.place = .menu)
    (htwo : 2 ≤ revision.copy.elements.length) (world : World) :
    (revision.answer "5" world).1.state = { revision with place := .reorder } := by
  have hoption : ("5", Choice.reorder) ∈ optionsOf revision.kind :=
    mem_optionsOf hkind "5" .reorder (by decide)
  obtain ⟨hline, hword, hsave⟩ := number_plain hoption
  have hallowed : revision.refusal? .reorder = none := if_neg (Nat.not_lt.mpr htwo)
  have htake : revision.take (trimmed "5") = revision.choose .reorder := by
    unfold take
    rw [hplace]
    show revision.atMenu (wordOf "5") = _
    rw [hword]
    exact atMenu_number revision hoption
  rw [answer_take hline (fun _ hsaved => hsave (hword.symm.trans hsaved)) world, htake]
  unfold choose
  rw [hallowed]
  rfl

/-- A move and, with the option chosen again, the move back. -/
theorem after_moves (hkind : revision.kind ≠ .image) (hplace : revision.place = .reorder)
    (htwo : 2 ≤ revision.copy.elements.length) (hsource : revision.InRange source)
    (htarget : revision.InRange target) (hshort : IsShort source ∧ IsShort target)
    (hline : line ∈ moveLines source target) (hagain : again ∈ moveLines target source)
    (first second third : World) :
    revision.after [(line, first), ("5", second), (again, third)] = { revision with place := .menu } := by
  have hlength := length_moved hsource.lt htarget.lt
  have hrestored := moved_moved hsource.lt htarget.lt
  have hmove := answer_moveLine hplace hsource htarget hshort hline first
  generalize moved (source - 1) (target - 1) revision.copy.elements = elements at hlength hrestored hmove
  obtain ⟨next, hnext⟩ : ∃ next, next = { revision.withElements elements with place := .menu } :=
    ⟨_, rfl⟩
  have hcount : next.copy.elements.length = revision.copy.elements.length := by
    rw [hnext]
    exact hlength
  have hoption : (next.answer "5" second).1.state = { next with place := .reorder } :=
    answer_option (by rwa [hnext]) (by rw [hnext]) (hcount ▸ htwo) second
  have hback := @answer_moveLine { next with place := .reorder } again target source rfl
    ⟨htarget.1, htarget.2.trans_eq hcount.symm⟩ ⟨hsource.1, hsource.2.trans_eq hcount.symm⟩
    hshort.symm hagain third
  rw [after, hmove, state_back, ← hnext, after, hoption, after, hback, state_back, after, hnext]
  show { revision.withElements (moved (target - 1) (source - 1) elements) with place := .menu } = _
  rw [hrestored]
  rfl

/-- Reordering moves one element and keeps all others in order: any line that
does not leave the revision is rejected, or moves an element and leads back
to the menu.  A line that names two positions moves between these, and the
same line the other way round, after the option is chosen again, takes the
element back.

A number of more than `maxDigits` digits is not read.  No list has so many
elements that its positions need more. -/
theorem reordering_moves_one (hkind : revision.kind ≠ .image) (hplace : revision.place = .reorder)
    (htwo : 2 ≤ revision.copy.elements.length) :
    (∀ line world, wordOf line ∉ cancelWords →
      ∃ next messages, revision.answer line world = (.go next (.ok messages), world)
        ∧ (next = revision ∨ ∃ source target, revision.InRange source ∧ revision.InRange target
          ∧ Reordered revision next source target))
      ∧ (IsShort revision.copy.elements.length →
        ∀ source target, revision.InRange source → revision.InRange target →
          (∀ line ∈ moveLines source target, ∀ world, ∃ next, Reordered revision next source target
            ∧ revision.answer line world = (.go next (.ok
              (reply (movedText revision.kind source target) :: menuMessages revision.kind)), world))
          ∧ ∀ line ∈ moveLines source target, ∀ again ∈ moveLines target source,
            ∀ first second third, revision.after [(line, first), ("5", second), (again, third)]
              = { revision with place := .menu }) := by
  refine ⟨fun line world hline => answer_reorder hplace hline world,
    fun hsize source target hsource htarget => ?_⟩
  have hshort : IsShort source ∧ IsShort target := ⟨hsize.mono hsource.2, hsize.mono htarget.2⟩
  refine ⟨fun line hline world => ?_, fun line hline again hagain first second third => ?_⟩
  · exact ⟨_, ⟨_, (isMoved_iff hsource.lt htarget.lt).mpr rfl, rfl⟩,
      answer_moveLine hplace hsource htarget hshort hline world⟩
  · exact after_moves hkind hplace htwo hsource htarget hshort hline hagain first second third

/-- The last of three errands becomes the first, and the last again. -/
theorem reordering_moves_one_errands :
    let errands : Revision := ⟨.list, [], ⟨.str "Errands", .null, [], .null, [],
      ["bank", "post", "bread"].map fun text => .item (.ofText text)⟩, .reorder⟩
    errands.kind ≠ .image ∧ 2 ≤ errands.copy.elements.length ∧ IsShort errands.copy.elements.length
      ∧ (∀ world, ∃ next messages, Reordered errands next 3 1
        ∧ errands.answer "3 to 1" world
          = (.go next (.ok (reply "Moved item 3 to position 1." :: messages)), world))
      ∧ ∀ first second third,
        errands.after [("3 to 1", first), ("5", second), ("1, 3", third)]
          = { errands with place := .menu } := by
  intro errands
  have hkind : errands.kind ≠ .image := by decide
  have htwo : 2 ≤ errands.copy.elements.length := by decide
  have hsize : IsShort errands.copy.elements.length := by
    unfold IsShort
    decide +kernel
  have hthree : errands.InRange 3 := ⟨by decide, by decide⟩
  have hone : errands.InRange 1 := ⟨by decide, by decide⟩
  have hmoves := (reordering_moves_one hkind rfl htwo).2 hsize 3 1 hthree hone
  refine ⟨hkind, htwo, hsize, fun world => ?_, fun first second third => ?_⟩
  · obtain ⟨next, hnext, hanswer⟩ := hmoves.1 "3 to 1" (by decide) world
    exact ⟨next, _, hnext, hanswer⟩
  · exact hmoves.2 "3 to 1" (by decide) "1, 3" (by decide) first second third

end Revision
end Daybook
