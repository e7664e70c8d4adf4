import LineCoach.Text.Quoted

/-!
# Log entries

What a run reports about its progress. Levels are ordered from the most to the least severe,
and a reader who asks for a level gets everything at that level or more severe. An entry may quote
a name or a text that somebody else chose, so what a terminal would take for a command is not
written as it is.
-/

namespace LineCoach.Log

/-- How severe an entry is. -/
inductive Level where
  | warn
  | info
  | debug
  | trace
deriving DecidableEq, Repr

namespace Level

/-- The word shown in front of an entry. -/
def name : Level → String
  | warn => "WARN"
  | info => "INFO"
  | debug => "DEBUG"
  | trace => "TRACE"

/-- Position in the order of levels, the most severe first. -/
def rank : Level → Nat
  | warn => 0
  | info => 1
  | debug => 2
  | trace => 3

/-- Whether a reader at level `threshold` sees entries of this level. -/
def shownAt (threshold level : Level) : Bool :=
  level.rank ≤ threshold.rank

end Level

/-- One message at one level. -/
structure Entry where
  level : Level
  text : String
deriving DecidableEq, Repr

namespace Entry

/-- Codes of the single-byte characters that start or carry out a command of a terminal: bell,
backspace, form feed, escape and delete. -/
def terminalCodes : List Nat :=
  [0x07, 0x08, 0x0C, 0x1B, 0x7F]

/-- A character as it is written in an entry. Characters that command a terminal are given by
their codes; blanks and line ends stay. -/
def shownChar (c : Char) : List Char :=
  if terminalCodes.contains c.toNat then ['\\', 'x'] ++ Text.hexByte c.toNat
  else if 0x80 ≤ c.toNat && c.toNat ≤ 0x9F then Text.codeEscape c
  else [c]

/-- The entry as it is written: its level and its text. -/
def line (entry : Entry) : String :=
  entry.level.name ++ " " ++ String.ofList (entry.text.toList.flatMap shownChar)

end Entry

/-- The entries that a reader at level `threshold` sees. -/
def shown (threshold : Level) (entries : List Entry) : List Entry :=
  entries.filter fun entry => threshold.shownAt entry.level

end LineCoach.Log
