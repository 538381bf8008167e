/-
The command line: options of the program and how they are read.

An option may be shortened as long as it stays unique, and its value may
follow as the next word or behind an equals sign.  A word that begins with
a hyphen is no value, unless it is a lone hyphen, a negative number, or
holds a space.  Nothing but options is accepted.  A request for help is
met as soon as it is reached, whatever is wrong behind it.  The short
option for help takes more letters behind it, each an option of its own,
and of those only that for help again is short.
-/
import Daybook.Text.Digit

namespace Daybook.Terminal

/-- The settings of a run. -/
structure Settings where
  apiBase : String
  token : Option String
  user : String
  verbose : Bool
  flushOutbox : Bool

/-- The options. -/
inductive Opt where
  | help
  | apiBase
  | token
  | user
  | verbose
  | flushOutbox
deriving DecidableEq

/-- The names of the options. -/
def optionNames : List (String × Opt) := [
  ("-h", .help), ("--help", .help), ("--api-base", .apiBase), ("--token", .token),
  ("--user", .user), ("--verbose", .verbose), ("--flush-outbox", .flushOutbox)]

/-- What a word of the command line is. -/
inductive Word where
  /-- A value, or a word out of place. -/
  | value (text : String)
  /-- Two hyphens: all words behind them are values. -/
  | separator
  /-- An option, with the value behind its equals sign if there is one. -/
  | option (opt : Opt) (value : Option String)
  /-- The letters behind the short option for help, with or without an
  equals sign before them. -/
  | helpCluster (letters : List Char)
  /-- Something that looks like an option and is none. -/
  | unknown
  /-- The beginning of more than one option. -/
  | ambiguous

/-- Whether a word reads as a negative number. -/
def isNegativeNumber (cs : List Char) : Bool :=
  let body := if cs.getLast? = some '\n' then cs.dropLast else cs
  match body with
  | '-' :: rest =>
    let whole := rest.takeWhile Text.isDigit
    match rest.drop whole.length with
    | [] => !whole.isEmpty
    | '.' :: fraction => !fraction.isEmpty && fraction.all Text.isDigit
    | _ => false
  | _ => false

/-- A word before its first equals sign, and what stands behind it. -/
def splitValue (cs : List Char) : List Char × Option String :=
  let name := cs.takeWhile (· ≠ '=')
  match cs.drop name.length with
  | _ :: value => (name, some (String.ofList value))
  | [] => (name, none)

/-- What a word is that begins with a hyphen and is no option by name. -/
def readHyphenWord (cs : List Char) : Word :=
  let (name, value) := splitValue cs
  match optionNames.find? fun (known, _) => known.toList == name, value with
  | some ("-h", _), some letters => .helpCluster letters.toList
  | some (_, opt), _ => .option opt value
  | none, _ =>
    let matching := optionNames.filter fun (known, _) => name.isPrefixOf known.toList
    let looksLikeValue := isNegativeNumber cs || cs.contains ' '
    match cs with
    | '-' :: '-' :: _ =>
      match matching with
      | [(_, opt)] => .option opt value
      | [] => if looksLikeValue then .value (String.ofList cs) else .unknown
      | _ => .ambiguous
    | '-' :: 'h' :: letters => .helpCluster letters
    | _ => if looksLikeValue then .value (String.ofList cs) else .unknown

/-- What a word of the command line is. -/
def readWord (word : String) : Word :=
  match word.toList with
  | '-' :: c :: cs => if word = "--" then .separator else readHyphenWord ('-' :: c :: cs)
  | _ => .value word

/-- What the words of a command line are. -/
def readWords : List String → List Word
  | [] => []
  | word :: words =>
    match readWord word with
    | .separator => .separator :: words.map .value
    | read => read :: readWords words

/-- Letters behind the short option for help ask for it when there are any
and each of them asks again. -/
def clusterHelps (letters : List Char) : Bool :=
  !letters.isEmpty && letters.all (· = 'h')

/-- What a command line asks for. -/
inductive Request where
  | run (settings : Settings)
  | help
  | refused

/-- The settings with the value of an option that takes one. -/
def Settings.withValue? (settings : Settings) (opt : Opt) (value : String) : Option Settings :=
  match opt with
  | .apiBase => some { settings with apiBase := value }
  | .token => some { settings with token := some value }
  | .user => some { settings with user := value }
  | _ => none

/-- The settings with an option that takes no value. -/
def Settings.withFlag? (settings : Settings) (opt : Opt) : Option Settings :=
  match opt with
  | .verbose => some { settings with verbose := true }
  | .flushOutbox => some { settings with flushOutbox := true }
  | _ => none

/-- Follows the words of a command line; `surplus` tells whether one was
out of place. -/
def follow (settings : Settings) (surplus : Bool) : List Word → Request
  | [] => if surplus then .refused else .run settings
  | .option .help none :: _ => .help
  | .option opt (some value) :: words =>
    match settings.withValue? opt value with
    | some settings => follow settings surplus words
    | none => .refused
  | .option opt none :: .value value :: words =>
    match settings.withValue? opt value with
    | some settings => follow settings surplus words
    | none =>
      match settings.withFlag? opt with
      | some settings => follow settings true words
      | none => .refused
  | .option opt none :: words =>
    match settings.withFlag? opt with
    | some settings => follow settings surplus words
    | none => .refused
  | .helpCluster letters :: _ => if clusterHelps letters then .help else .refused
  | .ambiguous :: _ => .refused
  | _ :: words => follow settings true words

/-- Reads a command line over the default settings. -/
def readOptions (defaults : Settings) (args : List String) : Request :=
  let words := readWords args
  if words.any fun | .ambiguous => true | _ => false then .refused
  else follow defaults false words

end Daybook.Terminal
