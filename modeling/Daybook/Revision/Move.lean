/-
Moving an element of a list to another position.

A move is typed as two positions, counted from one, with the word `to`, a
comma or blanks between them; anything behind a further separator is
ignored.
-/
import Daybook.Text.Digit

namespace Daybook

open Text

/-- The list with the element at `source` moved to `target`, both counted
from zero. -/
def moveElement {α : Type} (source target : Nat) (xs : List α) : List α :=
  match xs[source]? with
  | some x => (xs.eraseIdx source).insertIdx target x
  | none => xs

/-- The text behind a separator of positions at the head: the word `to`
between blanks, a comma with or without blanks, or blanks alone. -/
def afterSeparator (cs : List Char) : Option (List Char) :=
  let rest := skipBlank cs
  let blanks := rest.length < cs.length
  let word := match rest with
    | 't' :: 'o' :: c :: more => if blanks && isBlank c then some (skipBlank more) else none
    | ',' :: more => some (skipBlank more)
    | _ => none
  word.or (if blanks then some rest else none)

/-- The text before the first separator, and the text behind it. -/
def splitAtSeparator : List Char → Option (List Char × List Char)
  | [] => none
  | c :: cs =>
    match afterSeparator (c :: cs) with
    | some rest => some ([], rest)
    | none => (splitAtSeparator cs).map fun (before, rest) => (c :: before, rest)

/-- The two positions that a text names. -/
def positions? (cs : List Char) : Option (Int × Int) := do
  let (first, rest) ← splitAtSeparator (trim cs)
  let second := match splitAtSeparator rest with
    | some (second, _) => second
    | none => rest
  return (← integer? first, ← integer? second)

end Daybook
