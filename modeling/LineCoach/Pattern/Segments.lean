import LineCoach.Pattern.Match

/-!
# Segments of a pattern

A pattern may also be held against the names of a path one by one. Its components become patterns
of their own; components at its two ends that are empty or `**` are left out, because they only
say that anything may come before or behind.
-/

namespace LineCoach.Pattern

/-- The components of a pattern's text, empty ones included. -/
def parts (text : String) : List (List Char) :=
  text.toList.splitOnP (· = '/')

/-- Whether a component leaves open where the pattern begins or ends. -/
def isOpenEnd (part : List Char) : Bool :=
  part = [] || part = ['*', '*']

/-- The components without the open ones at the two ends. -/
def core (text : String) : List (List Char) :=
  (((parts text).dropWhile isOpenEnd).reverse.dropWhile isOpenEnd).reverse

/-- One pattern for each component of the core. -/
def segments (text : String) : Except Error (List Pattern) :=
  (core text).mapM fun part => parse (String.ofList part)

/-- Whether the segments match the first names of a list, one each. -/
def matchesFront : List Pattern → List String → Bool
  | [], _ => true
  | _ :: _, [] => false
  | segment :: segments, name :: names =>
    segment.matchesText name && matchesFront segments names

/-- Whether the segments match neighbouring names somewhere in a list. -/
def matchesRun (segments : List Pattern) : List String → Bool
  | [] => matchesFront segments []
  | name :: names => matchesFront segments (name :: names) || matchesRun segments names

end LineCoach.Pattern
