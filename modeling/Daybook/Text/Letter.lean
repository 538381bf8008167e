/-
Letters compared without regard to case.

Commands, answers and clause words are ASCII words, typed in any case.
Four characters outside ASCII take part: the dotted capital I (U+0130),
the dotless i (U+0131), the long s (U+017F) and the Kelvin sign (U+212A).
Two rules use them differently.  Lowering a text sends the Kelvin sign to
`k` and the dotted I to `i` with a combining dot, and leaves the other two
alone.  Comparing a letter without case takes all four for their ASCII
letter.
-/

namespace Daybook.Text

/-- A character in lower case, as far as it can meet an ASCII word: every
other character is its own lower case here. -/
def lower (c : Char) : List Char :=
  if c.toNat = 0x130 then ['i', Char.ofNat 0x307]
  else if c.toNat = 0x212A then ['k']
  else [c.toLower]

/-- A text in lower case. -/
def lowered (cs : List Char) : List Char := cs.flatMap lower

/-- A string in lower case. -/
def lowercase (s : String) : String := String.ofList (lowered s.toList)

@[simp] theorem toList_lowercase (s : String) : (lowercase s).toList = lowered s.toList := by
  simp [lowercase]

@[simp] theorem lowered_append (xs ys : List Char) :
    lowered (xs ++ ys) = lowered xs ++ lowered ys := by
  simp [lowered]

/-- The ASCII letter in lower case that a character counts as when case
is ignored; any other character counts as itself. -/
def fold (c : Char) : Char :=
  if c.toNat = 0x130 ∨ c.toNat = 0x131 then 'i'
  else if c.toNat = 0x17F then 's'
  else if c.toNat = 0x212A then 'k'
  else c.toLower

/-- What follows `word` at the head of a text, letters compared without
case.  The word itself is given in lower case. -/
def afterWord (word : List Char) (cs : List Char) : Option (List Char) :=
  match word, cs with
  | [], cs => some cs
  | w :: ws, c :: cs => if fold c = w then afterWord ws cs else none
  | _ :: _, [] => none

/-- Whether `word` stands at the head of a text. -/
def startsWith (word : String) (cs : List Char) : Bool := word.toList.isPrefixOf cs

end Daybook.Text
