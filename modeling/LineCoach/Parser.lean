import LineCoach.Budget
import LineCoach.Log
import LineCoach.Tree.Basic

/-!
# Parsers

A parser turns the text of a whole file into a syntax tree, with or without a limit on its time.
A parser that cannot be stopped part-way still keeps a limit: its tree counts only if it came in
time.
-/

namespace LineCoach

/-- Why a file could not be turned into a tree. -/
inductive ParseError where
  /-- The text breaks the grammar; this is where it first does. -/
  | malformed (position : Tree.Position)
  /-- The bytes of the file are not UTF-8. -/
  | encoding
  /-- The parse took longer than it may. -/
  | timedOut (budget : Budget)
  /-- The parser gave up without a tree. -/
  | aborted
  /-- The parser could not be set up. -/
  | setup (reason : String)
deriving DecidableEq, Repr

namespace ParseError

/-- The error in words. -/
def message : ParseError → String
  | malformed position => s!"syntax error at line {position.line}, column {position.column}"
  | encoding => "file is not valid UTF-8"
  | timedOut budget => s!"parsing did not finish within {budget.text}"
  | aborted => "parser produced no tree"
  | setup reason => s!"parser setup failed: {reason}"

end ParseError

/-- A way to read the files of one language. -/
structure SourceParser where
  language : String
  /-- Extensions of the files of the language, without the dot. -/
  extensions : List String
  parse : String → Except ParseError Tree
  parseWithin : Budget → String → Except ParseError Tree
  /-- What is logged about a tree that was parsed. -/
  notes : Tree → List Log.Entry := fun _ => []

namespace SourceParser

/-- Parse with the limit that is given, if any. -/
def run (parser : SourceParser) (limit : Option Budget) (content : String) :
    Except ParseError Tree :=
  match limit with
  | some budget => parser.parseWithin budget content
  | none => parser.parse content

/-- Keep a limit by refusing a tree that comes late. `elapsed` is the number of whole
milliseconds that have passed, so a budget that is reached is spent. -/
def refuseLate (parse : String → Except ParseError Tree) (elapsed : String → Nat)
    (budget : Budget) (content : String) : Except ParseError Tree := do
  let tree ← parse content
  if budget.millis ≤ elapsed content then throw (.timedOut budget)
  return tree

/-- A parser that cannot be stopped part-way. -/
def uninterrupted (language : String) (extensions : List String)
    (parse : String → Except ParseError Tree) (elapsed : String → Nat) : SourceParser where
  language := language
  extensions := extensions
  parse := parse
  parseWithin := refuseLate parse elapsed

end SourceParser

end LineCoach
