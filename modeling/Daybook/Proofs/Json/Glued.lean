/-
A value with some text before it in the same line is no value.

# What comes before

An entry that is added to the outbox stands behind whatever the file holds.
If the file stops in the middle of a line, the entry goes on that line: what
was begun there is then followed by a whole object, and the line is not JSON,
whatever was begun (`readText_glued`).

# How the proof goes

Reading is followed up to the text of the object, `opening tail`.  A reader
that is given more than that stops before it (`Before`).  There is one way to
get into it: a string that is still open ends at the first quote of the
object, and then a letter follows where none may stand.  And a reader that is
given just the object takes all of it, so nothing is left to close an array
or an object around it.  These are the three ways in which a value can stop
(`Stop`); none of them goes on to a comma, a bracket or a brace that was not
there before (`Stop.closing`).  The induction is on the fuel, over the three
readers at once.
-/
import Daybook.Proofs.Json.RoundTrip

namespace Daybook.Json

open Text

variable {tail cs rest : List Char}

-- ============================================================ the object

/-- The text of an object, up to the first letter of its first field. -/
def opening (tail : List Char) : List Char := '\x7b' :: '"' :: 'k' :: tail

/-- Whether a reading of some text with an object behind it has stopped
before the object. -/
def Before (tail cs rest : List Char) : Prop :=
  ∃ left, rest = left ++ opening tail ∧ left.length ≤ cs.length

/-- Blanks are skipped no further than up to the object. -/
theorem skipSpace_append_opening (cs tail : List Char) :
    skipSpace (cs ++ opening tail) = skipSpace cs ++ opening tail := by
  unfold skipSpace
  rw [List.dropWhile_append]
  split
  · next hnone =>
      rw [List.isEmpty_iff.mp hnone]
      rfl
  · rfl

/-- Skipping blanks makes no text longer. -/
theorem length_skipSpace_le (cs : List Char) : (skipSpace cs).length ≤ cs.length :=
  (List.dropWhile_sublist _).length_le

-- ================================================================ tokens

/-- Whether a reader takes characters from the head of a text, and none of
them opens an object. -/
def Takes (cs rest : List Char) : Prop := ∃ taken, cs = taken ++ rest ∧ '\x7b' ∉ taken

theorem Takes.refl (cs : List Char) : Takes cs cs := ⟨[], rfl, List.not_mem_nil⟩

theorem Takes.trans {mid : List Char} (h : Takes cs mid) (hrest : Takes mid rest) :
    Takes cs rest := by
  obtain ⟨first, rfl, hfirst⟩ := h
  obtain ⟨second, rfl, hsecond⟩ := hrest
  refine ⟨first ++ second, (List.append_assoc _ _ _).symm, fun hmem => ?_⟩
  exact (List.mem_append.mp hmem).elim hfirst hsecond

/-- One more character is taken, if it is no opening brace. -/
theorem takes_cons {c : Char} (hc : c ≠ '\x7b') (h : Takes cs rest) : Takes (c :: cs) rest := by
  obtain ⟨taken, rfl, htaken⟩ := h
  refine ⟨c :: taken, rfl, fun hmem => ?_⟩
  exact (List.mem_cons.mp hmem).elim (fun heq => hc heq.symm) htaken

/-- The longest run of characters of a sort that an opening brace is not. -/
theorem takes_takeWhile {p : Char → Bool} (hp : p '\x7b' = false) (cs : List Char) :
    Takes cs (cs.drop (cs.takeWhile p).length) := by
  obtain ⟨behind, hcs⟩ := List.takeWhile_prefix (l := cs) p
  have hdrop := congrArg (List.drop (cs.takeWhile p).length) hcs
  rw [List.drop_left] at hdrop
  refine ⟨cs.takeWhile p, ?_, fun hmem => ?_⟩
  · rw [← hdrop, hcs]
  · have hbrace := List.all_eq_true.mp List.all_takeWhile _ hmem
    rw [hp] at hbrace
    cases hbrace

/-- What takes no opening brace stops before the object. -/
theorem Takes.before (h : Takes (cs ++ opening tail) rest) : Before tail cs rest := by
  obtain ⟨taken, htaken, hbrace⟩ := h
  rcases List.append_eq_append_iff.mp htaken with ⟨beyond, hbeyond, hopening⟩ | ⟨left, rfl, rfl⟩
  · cases beyond with
    | nil =>
        refine ⟨[], ?_, Nat.zero_le _⟩
        rw [List.nil_append] at hopening ⊢
        exact hopening.symm
    | cons c beyond =>
        have hc : '\x7b' = c := (List.cons.inj hopening).1
        refine absurd ?_ hbrace
        rw [hbeyond, hc]
        exact List.mem_append_right _ List.mem_cons_self
  · refine ⟨left, rfl, ?_⟩
    rw [List.length_append]
    omega

/-- A word without a brace, such as `null`. -/
theorem takes_after {word : String} (h : after? word cs = some rest) (hword : '\x7b' ∉ word.toList) :
    Takes cs rest := by
  unfold after? at h
  split at h
  · next hstarts =>
      obtain ⟨behind, rfl⟩ := List.isPrefixOf_iff_prefix.mp hstarts
      rw [← String.length_toList, List.drop_left] at h
      cases h
      exact ⟨word.toList, rfl, hword⟩
  · cases h

-- --------------------------------------------------------- numbers

/-- The digits before the point: a zero alone, or a run of digits. -/
theorem takes_wholeDigits (cs : List Char) : Takes cs (cs.drop (wholeDigits cs).length) := by
  unfold wholeDigits
  split
  · exact takes_cons (by decide) (.refl _)
  · exact takes_takeWhile (by decide) cs

/-- A point and the digits behind it; a point without digits is left where it
is. -/
theorem takes_fractionDigits (cs : List Char) :
    Takes cs (if (fractionDigits cs).isEmpty then cs else cs.drop (1 + (fractionDigits cs).length)) := by
  unfold fractionDigits
  split
  · split
    · exact .refl _
    · rw [Nat.add_comm, List.drop_succ_cons]
      exact takes_cons (by decide) (takes_takeWhile (by decide) _)
  · exact .refl cs

/-- An exponent is a letter, a sign if there is one, and digits. -/
theorem takes_exponent {power : Int} {size : Nat} (h : exponent? cs = some (power, size)) :
    Takes cs (cs.drop size) := by
  have hdigits : ∀ ds : List Char, Takes ds (ds.drop (ds.takeWhile isAsciiDigit).length) :=
    takes_takeWhile (by decide)
  unfold exponent? at h
  split at h
  · next c rest =>
      split at h
      · next hletter =>
          have hc : c ≠ '\x7b' := by
            rintro rfl
            exact absurd hletter (by decide)
          dsimp only at h
          split at h
          · cases h
          · obtain ⟨-, rfl⟩ := Prod.mk.inj (Option.some.inj h)
            rw [Nat.add_assoc, Nat.add_comm 1, List.drop_succ_cons]
            refine takes_cons hc ?_
            split
            · rw [Nat.add_comm 1, List.drop_succ_cons]
              exact takes_cons (by decide) (hdigits _)
            · rw [Nat.add_comm 1, List.drop_succ_cons]
              exact takes_cons (by decide) (hdigits _)
            · rw [Nat.zero_add]
              exact hdigits _
      · cases h
  · cases h

/-- A number is its digits, behind a point too, and its exponent. -/
theorem takes_readNumber {negative : Bool} {value : Json}
    (h : readNumber negative cs = .ok (value, rest)) : Takes cs rest := by
  have hmantissa := (takes_wholeDigits cs).trans (takes_fractionDigits _)
  unfold readNumber at h
  dsimp only at h
  split at h
  · cases h
  · split at h
    · next hexponent =>
        cases h
        exact hmantissa.trans (takes_exponent hexponent)
    · split at h
      · next hnone =>
          rw [if_pos hnone] at hmantissa
          split at h
          · cases h
          · cases h
            exact hmantissa
      · next hsome =>
          rw [if_neg hsome] at hmantissa
          cases h
          exact hmantissa

-- --------------------------------------------------------- escapes

/-- The four digits of a code unit. -/
theorem takes_unit {n : Nat} (h : unit? cs = some (n, rest)) : Takes cs rest := by
  have hdigit : ∀ {c : Char} {v : Nat}, hexValue? c = some v → c ≠ '\x7b' := by
    rintro c v hc rfl
    cases hc
  unfold unit? at h
  split at h
  · split at h
    · next ha hb hc hd =>
        cases h
        exact takes_cons (hdigit ha) (takes_cons (hdigit hb) (takes_cons (hdigit hc)
          (takes_cons (hdigit hd) (.refl _))))
    · cases h
  · cases h

/-- Behind a backslash stands a letter, or one or two code units. -/
theorem takes_escaped {point : Point} (h : escaped? cs = some (point, rest)) : Takes cs rest := by
  unfold escaped? at h
  split at h
  case h_9 =>
    obtain ⟨⟨high, more⟩, hunit, hpoint⟩ := Option.map_eq_some_iff.mp h
    refine takes_cons (by decide) ((takes_unit hunit).trans ?_)
    dsimp only at hpoint
    split at hpoint
    · next low behind hpair =>
        cases hpoint
        split at hpair
        · split at hpair
          · exact takes_cons (by decide) (takes_cons (by decide)
              (takes_unit (Option.filter_eq_some_iff.mp hpair).1))
          · cases hpair
        · cases hpair
    · cases hpoint
      exact .refl _
  case h_10 => cases h
  all_goals
    cases h
    exact takes_cons (by decide) (.refl _)

-- =============================================================== strings

/-- Whether a reading of a string, with an object behind the text, has
stopped before the object or behind its first quote. -/
def StringStops (tail cs rest : List Char) : Prop := Before tail cs rest ∨ rest = 'k' :: tail

/-- A character before the text moves no reader into the object. -/
theorem Before.cons (h : Before tail cs rest) (c : Char) : Before tail (c :: cs) rest := by
  obtain ⟨left, rfl, hleft⟩ := h
  exact ⟨left, rfl, Nat.le_succ_of_le hleft⟩

/-- A reader that has taken nothing stands before the object. -/
theorem Before.all (cs : List Char) : Before tail cs (cs ++ opening tail) := ⟨cs, rfl, Nat.le_refl _⟩

/-- To stop before the object in what is left of a text is to stop before it
in the text. -/
theorem Before.trans {mid : List Char} (hmid : Before tail mid rest) (h : mid.length ≤ cs.length) :
    Before tail cs rest := by
  obtain ⟨left, rfl, hleft⟩ := hmid
  exact ⟨left, rfl, Nat.le_trans hleft h⟩

/-- A string that is open ends in the text or at the first quote behind
it. -/
theorem stringStops_readPoints {fuel : Nat} {points : List Point}
    (h : readPoints fuel (cs ++ opening tail) = some (points, rest)) : StringStops tail cs rest := by
  induction fuel generalizing cs points rest with
  | zero => cases h
  | succ fuel ih =>
      cases cs with
      | nil =>
          -- the brace is a character of the string, and the quote is its end
          rw [List.nil_append, opening, readPoints_bare (by decide) (by decide) (by decide)] at h
          obtain ⟨⟨more, behind⟩, hmore, hread⟩ := Option.map_eq_some_iff.mp h
          cases hread
          cases fuel with
          | zero => cases hmore
          | succ fuel =>
              cases hmore
              exact .inr rfl
      | cons c cs =>
          rw [List.cons_append] at h
          unfold readPoints at h
          split at h
          · next heq => cases heq
          · next heq =>
              cases heq
              cases h
              exact .inl ⟨cs, rfl, Nat.le_succ _⟩
          · next heq =>
              cases heq
              split at h
              · next hescaped =>
                  obtain ⟨left, rfl, hleft⟩ := (takes_escaped hescaped).before
                  obtain ⟨⟨more, behind⟩, hmore, hread⟩ := Option.map_eq_some_iff.mp h
                  cases hread
                  exact (ih hmore).imp_left (·.trans (Nat.le_succ_of_le hleft))
              · cases h
          · next heq =>
              cases heq
              split at h
              · cases h
              · obtain ⟨⟨more, behind⟩, hmore, hread⟩ := Option.map_eq_some_iff.mp h
                cases hread
                exact (ih hmore).imp_left (·.cons c)

/-- The same of a string in a value. -/
theorem stringStops_readString {s : JsonString}
    (h : readString (cs ++ opening tail) = .ok (s, rest)) : StringStops tail cs rest := by
  unfold readString at h
  split at h
  · next hpoints =>
      cases h
      exact stringStops_readPoints hpoints
  · cases h

-- ================================================================ values

/-- Where the reading of a value stops that is given some text with an object
behind it: before the object, behind its first quote, or behind all of it if
there is no text. -/
inductive Stop (tail cs : List Char) : List Char → Prop
  | before {rest : List Char} (h : Before tail cs rest) : Stop tail cs rest
  | within : Stop tail cs ('k' :: tail)
  | behind (h : cs = []) : Stop tail cs []

/-- What closes a value, or goes on to another one, was there before the
object. -/
theorem Stop.closing {c : Char} {more : List Char} (h : Stop tail cs rest)
    (hmore : skipSpace rest = c :: more) (hc : c ≠ 'k' ∧ c ≠ '\x7b') :
    ∃ left, more = left ++ opening tail ∧ left.length < cs.length := by
  cases h with
  | before h =>
      obtain ⟨left, rfl, hleft⟩ := h
      rw [skipSpace_append_opening] at hmore
      have hskipped := length_skipSpace_le left
      cases hleft' : skipSpace left with
      | nil =>
          rw [hleft'] at hmore
          exact absurd (List.cons.inj hmore).1.symm hc.2
      | cons d left' =>
          rw [hleft'] at hmore hskipped
          refine ⟨left', (List.cons.inj hmore).2.symm, ?_⟩
          rw [List.length_cons] at hskipped
          omega
  | within => exact absurd (List.cons.inj hmore).1.symm hc.1
  | behind _ => cases hmore

/-- What is closed at once is closed by what was there before the object. -/
theorem before_of_closed {c : Char} (hclosed : skipSpace (cs ++ opening tail) = c :: rest)
    (hc : c ≠ 'k' ∧ c ≠ '\x7b') : Before tail cs rest := by
  obtain ⟨left, rfl, hleft⟩ := (Stop.before (Before.all cs)).closing hclosed hc
  exact ⟨left, rfl, Nat.le_of_lt hleft⟩

/-- Whether readings with this much fuel stop so. -/
structure Stops (tail : List Char) (fuel : Nat) : Prop where
  value : ∀ {cs rest value}, 2 * (cs ++ opening tail).length ≤ fuel →
    readValue fuel (cs ++ opening tail) = .ok (value, rest) → Stop tail cs rest
  items : ∀ {cs rest items}, 2 * (cs ++ opening tail).length < fuel →
    readItems fuel (cs ++ opening tail) = .ok (items, rest) → Before tail cs rest
  fields : ∀ {cs rest done fields}, 2 * (cs ++ opening tail).length < fuel →
    readFields fuel done (cs ++ opening tail) = .ok (fields, rest) → Before tail cs rest

/-- What a mapped result comes from. -/
theorem ok_of_map {ε α β : Type} {f : α → β} {value : Except ε α} {b : β}
    (h : value.map f = .ok b) : ∃ a, value = .ok a ∧ f a = b := by
  cases value with
  | ok a => exact ⟨a, rfl, Except.ok.inj h⟩
  | error e => cases h

/-- A value that is begun in the text ends there, or it is a string that ends
at the first quote of the object. -/
theorem Stops.readValue_succ {fuel : Nat} {value : Json} (h : Stops tail fuel)
    (hobject : ∃ object, readValue (fuel + 1) (opening tail) = .ok (object, []))
    (hfuel : 2 * (cs ++ opening tail).length ≤ fuel + 1)
    (hread : readValue (fuel + 1) (cs ++ opening tail) = .ok (value, rest)) : Stop tail cs rest := by
  cases cs with
  | nil =>
      obtain ⟨object, hobject⟩ := hobject
      rw [List.nil_append, hobject] at hread
      cases hread
      exact .behind rfl
  | cons c cs =>
      rw [List.cons_append] at hread hfuel
      rw [List.length_cons] at hfuel
      have hskipped := length_skipSpace_le cs
      have hinner : 2 * (skipSpace cs ++ opening tail).length < fuel := by
        rw [List.length_append] at hfuel ⊢
        omega
      unfold readValue at hread
      split at hread
      · next heq => cases heq
      -- a string
      · next heq =>
          cases heq
          obtain ⟨⟨s, behind⟩, hs, hvalue⟩ := ok_of_map hread
          cases hvalue
          rcases stringStops_readString hs with hbefore | rfl
          · exact .before (hbefore.cons _)
          · exact .within
      -- an array
      · next heq =>
          cases heq
          split at hread
          · next hclosed =>
              cases hread
              exact .before ((before_of_closed hclosed (by decide)).cons _)
          · obtain ⟨⟨items, behind⟩, hitems, hvalue⟩ := ok_of_map hread
            cases hvalue
            rw [skipSpace_append_opening] at hitems
            exact .before ((h.items hinner hitems).trans (Nat.le_succ_of_le hskipped))
      -- an object
      · next heq =>
          cases heq
          split at hread
          · next hclosed =>
              cases hread
              exact .before ((before_of_closed hclosed (by decide)).cons _)
          · obtain ⟨⟨fields, behind⟩, hfields, hvalue⟩ := ok_of_map hread
            cases hvalue
            rw [skipSpace_append_opening] at hfields
            exact .before ((h.fields hinner hfields).trans (Nat.le_succ_of_le hskipped))
      -- a number with a sign, or a word behind one
      · next heq =>
          cases heq
          split at hread
          · next hword =>
              cases hread
              exact .before ((takes_after hword (by decide)).before.cons _)
          · exact .before ((takes_readNumber hread).before.cons _)
      -- a word, or else a number
      · split at hread
        case h_6 => exact .before (takes_readNumber hread).before
        all_goals
          cases hread
          exact .before (Takes.before (takes_after (by assumption) (by decide)))

/-- Elements are read one by one: behind each stands a comma, with more of
them, or the bracket. -/
theorem readItems_ok {fuel : Nat} {items : List Json}
    (h : readItems (fuel + 1) cs = .ok (items, rest)) :
    ∃ item behind, readValue fuel cs = .ok (item, behind)
      ∧ ((∃ more others, skipSpace behind = ',' :: more
          ∧ readItems fuel (skipSpace more) = .ok (others, rest))
        ∨ skipSpace behind = ']' :: rest) := by
  unfold readItems at h
  split at h
  · cases h
  · next item behind hitem =>
      refine ⟨item, behind, hitem, ?_⟩
      split at h
      · next more hcomma =>
          obtain ⟨⟨others, _⟩, hothers, hitems⟩ := ok_of_map h
          cases hitems
          exact .inl ⟨more, others, hcomma, hothers⟩
      · next hclosed =>
          cases h
          exact .inr hclosed
      · cases h

/-- A field is read as its name, a colon and its value; behind it stands a
comma, with more fields, or the brace. -/
theorem readFields_ok {fuel : Nat} {done fields : Record}
    (h : readFields (fuel + 1) done cs = .ok (fields, rest)) :
    ∃ text key named colon value behind, cs = '"' :: text ∧ readString text = .ok (key, named)
      ∧ skipSpace named = ':' :: colon ∧ readValue fuel (skipSpace colon) = .ok (value, behind)
      ∧ ((∃ more, skipSpace behind = ',' :: more
          ∧ readFields fuel (done.set key value) (skipSpace more) = .ok (fields, rest))
        ∨ skipSpace behind = '\x7d' :: rest) := by
  unfold readFields at h
  split at h
  · next text =>
      split at h
      · cases h
      · next key named hkey =>
          split at h
          · next colon hcolon =>
              split at h
              · cases h
              · next value behind hvalue =>
                  refine ⟨text, key, named, colon, value, behind, rfl, hkey, hcolon, hvalue, ?_⟩
                  split at h
                  · next more hcomma => exact .inl ⟨more, hcomma, h⟩
                  · next hclosed =>
                      cases h
                      exact .inr hclosed
                  · cases h
          · cases h
  · cases h

/-- The elements of an array end before the object: each stops so, and the
comma or the bracket behind it was there already. -/
theorem Stops.readItems_succ {fuel : Nat} {items : List Json} (h : Stops tail fuel)
    (hfuel : 2 * (cs ++ opening tail).length < fuel + 1)
    (hread : readItems (fuel + 1) (cs ++ opening tail) = .ok (items, rest)) :
    Before tail cs rest := by
  obtain ⟨item, behind, hitem, hrest⟩ := readItems_ok hread
  have hstop := h.value (Nat.le_of_lt_succ hfuel) hitem
  rcases hrest with ⟨more, others, hcomma, hothers⟩ | hclosed
  · obtain ⟨left, rfl, hleft⟩ := hstop.closing hcomma (by decide)
    have hskipped := length_skipSpace_le left
    rw [skipSpace_append_opening] at hothers
    refine (h.items ?_ hothers).trans (by omega)
    rw [List.length_append] at hfuel ⊢
    omega
  · obtain ⟨left, rfl, hleft⟩ := hstop.closing hclosed (by decide)
    exact ⟨left, rfl, Nat.le_of_lt hleft⟩

/-- The fields of an object end before the one behind it, for the same reason:
the colon, the comma and the brace were there already. -/
theorem Stops.readFields_succ {fuel : Nat} {done fields : Record} (h : Stops tail fuel)
    (hfuel : 2 * (cs ++ opening tail).length < fuel + 1)
    (hread : readFields (fuel + 1) done (cs ++ opening tail) = .ok (fields, rest)) :
    Before tail cs rest := by
  obtain ⟨text, key, named, colon, value, behind, htext, hkey, hcolon, hvalue, hrest⟩ :=
    readFields_ok hread
  cases cs with
  | nil => cases htext
  | cons c cs =>
      cases htext
      rw [List.cons_append, List.length_cons, List.length_append] at hfuel
      have hnamed : Stop tail cs named := by
        rcases stringStops_readString hkey with hbefore | rfl
        · exact .before hbefore
        · exact .within
      obtain ⟨left, rfl, hleft⟩ := hnamed.closing hcolon (by decide)
      have hgap := length_skipSpace_le left
      rw [skipSpace_append_opening] at hvalue
      have hstop := h.value (by rw [List.length_append]; omega) hvalue
      rcases hrest with ⟨more, hcomma, hmore⟩ | hclosed
      · obtain ⟨others, rfl, hothers⟩ := hstop.closing hcomma (by decide)
        have hskipped := length_skipSpace_le others
        rw [skipSpace_append_opening] at hmore
        refine (h.fields ?_ hmore).trans (by rw [List.length_cons]; omega)
        rw [List.length_append]
        omega
      · obtain ⟨others, rfl, hothers⟩ := hstop.closing hclosed (by decide)
        exact ⟨others, rfl, by rw [List.length_cons]; omega⟩

/-- Readings stop so with whatever fuel, if the object is read to its end
with enough of it. -/
theorem stops (hobject : ∀ fuel, 2 * (opening tail).length ≤ fuel →
    ∃ object, readValue fuel (opening tail) = .ok (object, [])) (fuel : Nat) : Stops tail fuel := by
  induction fuel with
  | zero =>
      refine ⟨fun _ hread => ?_, fun hfuel => absurd hfuel (Nat.not_lt_zero _),
        fun hfuel => absurd hfuel (Nat.not_lt_zero _)⟩
      cases hread
  | succ fuel ih =>
      refine ⟨fun hfuel => ih.readValue_succ (hobject _ ?_) hfuel, ih.readItems_succ, ih.readFields_succ⟩
      rw [List.length_append] at hfuel
      omega

/-- A line that ends in the text of an object, and has more before it than
blanks, is no JSON. -/
theorem readText_glued {object : Json} (hplain : object.isPlain = true)
    (hwritable : object.isWritable = true) (hopening : object.write = opening tail)
    (hcs : skipSpace cs ≠ []) (value : Json) : readText (cs ++ object.write) ≠ .ok value := by
  intro hread
  have hobject : ∀ fuel, 2 * (opening tail).length ≤ fuel →
      ∃ object, readValue fuel (opening tail) = .ok (object, []) := by
    intro fuel hfuel
    rw [← hopening] at hfuel ⊢
    have hwhole := readValue_write object hplain hwritable closes_nil fuel hfuel
    rw [List.append_nil] at hwhole
    exact ⟨object, hwhole⟩
  rw [hopening] at hread
  unfold readText at hread
  rw [skipSpace_append_opening] at hread
  split at hread
  · cases hread
  · next hvalue =>
      have hfuel : 2 * (skipSpace cs ++ opening tail).length ≤ 2 * (cs ++ opening tail).length + 2 := by
        have hskipped := length_skipSpace_le cs
        rw [List.length_append, List.length_append]
        omega
      split at hread
      · next hend =>
          have hnone := List.isEmpty_iff.mp hend
          cases (stops hobject _).value hfuel hvalue with
          | before h =>
              obtain ⟨left, rfl, -⟩ := h
              rw [skipSpace_append_opening] at hnone
              exact List.cons_ne_nil _ _ (List.append_eq_nil_iff.mp hnone).2
          | within => exact List.cons_ne_nil _ _ hnone
          | behind h => exact hcs h
      · cases hread

end Daybook.Json
