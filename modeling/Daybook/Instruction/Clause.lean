/-
The clauses of a line: quoted text, ids, hashtags, tags, categories,
dates and search texts.

A clause is a word with a colon and a value behind it.  Each reader below
takes the text from some position on; the clause of a line is the first
one that can be read, from left to right.  The words are read in any case.
-/
import Daybook.Text.Pieces
import Daybook.Text.Scan
import Daybook.Text.Word

namespace Daybook.Clause

open Text

/-- The quote characters; any two of them close each other. -/
def isQuote (c : Char) : Bool := c == '"' || c == '\''

/-- The characters of an id. -/
def isIdChar (c : Char) : Bool := c.isAlphanum || c == '_' || c == '-'

-- ================================================== quotes and marks

/-- Text between two quotes, at the head of a text; it is not empty. -/
def quotedHere (cs : List Char) : Option (List Char) :=
  match cs with
  | c :: rest =>
    if isQuote c then
      match run? (fun x => !isQuote x) rest with
      | some value => if (rest.drop value.length).isEmpty then none else some value
      | none => none
    else none
  | [] => none

/-- The first text between two quotes. -/
def quoted? (cs : List Char) : Option (List Char) := seek quotedHere cs

/-- The first id, written behind a number sign. -/
def id? (cs : List Char) : Option (List Char) :=
  seek (fun
    | '#' :: rest => run? isIdChar rest
    | _ => none) cs

/-- All hashtags, in order. -/
def hashtags : List Char → List (List Char)
  | [] => []
  | c :: cs =>
    if c = '#' then
      match run? isWordChar cs with
      | some tag => tag :: hashtags cs
      | none => hashtags cs
    else hashtags cs

/-- A tag without the quotes at its ends. -/
def unquoted (cs : List Char) : List Char :=
  ((cs.dropWhile isQuote).reverse.dropWhile isQuote).reverse

/-- A comma-separated list of tags: each trimmed and without stray quotes,
empty ones dropped. -/
def tagList (cs : List Char) : List (List Char) :=
  ((cells cs).map unquoted).filter (· ≠ [])

-- ======================================================== categories

/-- The text behind a colon that stands at the head, blanks before it
being allowed if `spaced`. -/
def afterColon (spaced : Bool) (cs : List Char) : Option (List Char) :=
  match if spaced then skipBlank cs else cs with
  | ':' :: rest => some rest
  | _ => none

/-- The text behind `word` and at least one blank, without that word if
it does not stand there. -/
def pastLink (word : String) (cs : List Char) : List Char :=
  match afterWord word.toList cs with
  | some (c :: rest) => if isBlank c then skipBlank rest else cs
  | _ => cs

/-- The text behind `category:` at the head, blanks before the colon being
allowed if `spaced`. -/
def afterCategory (spaced : Bool) (cs : List Char) : Option (List Char) :=
  (afterWord "category".toList cs).bind (afterColon spaced)

/-- Whether a category clause begins at the head, after blanks and perhaps
the word `in`. -/
def categoryAhead (spaced : Bool) (cs : List Char) : Bool :=
  (afterCategory spaced (pastLink "in" (skipBlank cs))).isSome

/-- The text without a quote at its head. -/
def dropQuote (cs : List Char) : List Char :=
  match cs with
  | c :: rest => if isQuote c then rest else cs
  | [] => []

/-- The category named in a line: one word. -/
def category? (cs : List Char) : Option (List Char) :=
  seek (fun rest => (afterCategory true rest).bind fun value =>
    run? isWordChar (dropQuote (skipBlank value))) cs

-- ============================================================== tags

/-- The value of a tags clause when a memory is created: it ends before a
quote, a category clause or the end of the text, and holds no line
break. -/
def memoryTagsValue : List Char → Option (List Char)
  | [] => some []
  | c :: cs =>
    if isQuote c || categoryAhead false (c :: cs) || (c == '\n' && cs.isEmpty) then some []
    else if c = '\n' then none
    else (memoryTagsValue cs).map (c :: ·)

/-- The tags of a memory to be created: those of its tags clause, or else
its hashtags. -/
def memoryTags (cs : List Char) : List (List Char) :=
  let clause := seek (fun rest =>
    (afterWord "tags:".toList rest).bind fun value => memoryTagsValue (skipBlank value)) cs
  match tagList (clause.getD []) with
  | [] => hashtags cs
  | tags => tags

/-- Where the value of a tags filter ends: at a quote, a period, a
category clause or the end of the text. -/
def filterTagsEnd (cs : List Char) : Bool :=
  match cs with
  | [] => true
  | c :: rest =>
    isQuote c || c == '.' || categoryAhead true cs || (c == '\n' && rest.isEmpty)

/-- The words that open a tags filter. -/
def filterTagsWords : List String := ["tagged", "tags", "tag"]

/-- The value of a tags filter at the head of a text. -/
def filterTagsHere (cs : List Char) : Option (List Char) :=
  filterTagsWords.findSome? fun word =>
    ((afterWord word.toList cs).bind (afterColon true)).map fun value =>
      takeUntil filterTagsEnd (dropQuote (skipBlank value))

/-- The tags to filter by: those of the tags filter, or else the hashtags
if they count. -/
def filterTags (hashtagsCount : Bool) (cs : List Char) : List (List Char) :=
  match seek filterTagsHere cs with
  | some value => tagList value
  | none => if hashtagsCount then hashtags cs else []

/-- The tags of a picture: all up to the next quote. -/
def pictureTags (cs : List Char) : List (List Char) :=
  match seek (fun rest => (afterWord "tags:".toList rest).bind (run? fun c => !isQuote c)) cs with
  | some value => tagList value
  | none => []

-- =========================================================== content

/-- The text without the parts that `clause` reads; `skip` characters of
the part read last are still to be dropped. -/
def without (clause : List Char → Option (List Char)) (skip : Nat) : List Char → List Char
  | [] => []
  | c :: cs =>
    match skip with
    | n + 1 => without clause n cs
    | 0 =>
      match clause (c :: cs) with
      | some rest => without clause (cs.length - rest.length) cs
      | none => c :: without clause 0 cs

/-- The text behind a tags clause at the head; the clause reaches to the
next double quote. -/
def pastTags (cs : List Char) : Option (List Char) :=
  (afterWord "tags:".toList (pastLink "with" (skipBlank cs))).bind fun value =>
    (run? (· ≠ '"') value).map fun tags => value.drop tags.length

/-- The text behind a category clause at the head. -/
def pastCategory (cs : List Char) : Option (List Char) :=
  (afterCategory false (pastLink "in" (skipBlank cs))).bind fun value =>
    let word := skipBlank value
    (run? isWordChar word).map fun category => word.drop category.length

/-- The content of a memory to be created: the first quoted text, or else
what stands behind the colon on its line, without the tags and category
clauses. -/
def memoryContent (cs : List Char) : List Char :=
  match quoted? cs with
  | some content => content
  | none =>
    match seek (fun rest =>
      (afterWord "create memory".toList rest).bind (afterColon true)) cs with
    | some value =>
      let line := trim ((skipBlank value).takeWhile (· ≠ '\n'))
      trim (without pastCategory 0 (trim (without pastTags 0 line)))
    | none => []

-- ==================================================== other clauses

/-- The description of a picture, quoted. -/
def description? (cs : List Char) : Option (List Char) :=
  seek (fun rest =>
    (afterWord "description:".toList rest).bind fun value => quotedHere (skipBlank value)) cs

/-- The date to filter by: all up to the next period. -/
def date? (cs : List Char) : Option (List Char) :=
  (seek (fun rest => (afterWord "from:".toList rest).bind (run? (· ≠ '.'))) cs).map trim

/-- The text to search for: all up to the next period behind
`containing:`, or the quoted text behind `search:`. -/
def search? (cs : List Char) : Option (List Char) :=
  (seek (fun rest =>
    ((afterWord "containing:".toList rest).bind (run? (· ≠ '.'))).or
      ((afterWord "search:".toList rest).bind fun value => quotedHere (skipBlank value))) cs).map
    trim

/-- The moods that are categories in their own right. -/
def moods : List String :=
  ["happy", "sad", "angry", "excited", "calm", "anxious", "work", "personal", "ideas"]

/-- A mood followed by `moments` or `memories`, in lower case. -/
def mood? (cs : List Char) : Option (List Char) :=
  (seek (fun rest =>
    moods.findSome? fun mood =>
      (afterWord mood.toList rest).bind fun tail =>
        if tail.head?.any isBlank &&
            ["moments", "memories"].any fun noun =>
              (afterWord noun.toList (skipBlank tail)).isSome then
          some (rest.take mood.length)
        else none) cs).map lowered

-- ============================================================== edits

/-- The quoted text behind `add:` at the head; this word is read in lower
case only. -/
def addedHere (cs : List Char) : Option (List Char) :=
  if startsWith "add:" cs then quotedHere (skipBlank (cs.drop 4)) else none

/-- The text behind a colon at the head, if it is the last line of the
text and only blanks stand between.  One line break may close it. -/
def lastLineHere (cs : List Char) : Option (List Char) :=
  match cs with
  | ':' :: rest =>
    let body := if rest.getLast? = some '\n' then rest.dropLast else rest
    let line := (body.reverse.takeWhile (· ≠ '\n')).reverse
    if !line.isEmpty && (body.take (body.length - line.length)).all isBlank then
      some (trim line)
    else none
  | _ => none

end Daybook.Clause
