/-
Blank characters and trimming.

One notion of white space serves the whole library: the clause readers
skip it, every field is trimmed of it, and a line that holds nothing else
counts as empty.  It is the Unicode property `White_Space` together with
the four information separators U+001C to U+001F.  The zero width space
and the byte order mark are not blank.
-/

namespace Daybook.Text

/-- The blank characters: Unicode white space and the information
separators. -/
def isBlank (c : Char) : Bool :=
  let n := c.toNat
  (9 ≤ n && n ≤ 13) || (28 ≤ n && n ≤ 32) || n == 0x85 || n == 0xA0 ||
    n == 0x1680 || (0x2000 ≤ n && n ≤ 0x200A) || n == 0x2028 || n == 0x2029 ||
    n == 0x202F || n == 0x205F || n == 0x3000

-- ============================================================ trimming

/-- What follows the blanks at the head of a text. -/
def skipBlank (cs : List Char) : List Char := cs.dropWhile isBlank

/-- The text without the blanks at its end. -/
def trimEnd (cs : List Char) : List Char := (cs.reverse.dropWhile isBlank).reverse

/-- The text without the blanks at either end. -/
def trim (cs : List Char) : List Char := trimEnd (skipBlank cs)

/-- A string without the blanks at either end. -/
def trimmed (s : String) : String := String.ofList (trim s.toList)

@[simp] theorem toList_trimmed (s : String) : (trimmed s).toList = trim s.toList := by
  simp [trimmed]

end Daybook.Text
