import LineCoach.Concrete.Parser
import LineCoach.FileTree.Listing

/-!
# Listings of concrete trees

A listing is a text with one line for each node of a tree, in pre-order. A line has ten fields
between tabs: the depth, the kind, the marks, the field name, the first byte and the byte behind
the node, and the row and the column of its two ends. The marks are a sum: 1 for a rule of the
grammar, 2 for an error, 4 for something missing, 8 for an error in the node or below it.

Listings stand beside the files they are about, so that a scan needs no grammar of its own.
-/

namespace LineCoach.Concrete

/-- Whether the mark that counts `weight` is in a sum of marks. -/
def hasMark (marks weight : Nat) : Bool :=
  marks / weight % 2 = 1

/-- The row of a node whose marks are given as a sum. -/
def Row.ofMarks (depth : Nat) (kind : String) (marks : Nat) (field : String)
    (startByte endByte : Nat) (start stop : Point) : Row where
  depth := depth
  info :=
    { kind, field, startByte, endByte, start, stop
      named := hasMark marks 1
      isError := hasMark marks 2
      isMissing := hasMark marks 4
      hasError := hasMark marks 8 }

/-- Read a line of a listing. -/
def Row.read? (line : String) : Option Row :=
  match (line.toList.splitOnP (· = '\t')).map String.ofList with
  | [depth, kind, marks, field, startByte, endByte, startRow, startColumn, stopRow, stopColumn] =>
    return .ofMarks (← depth.toNat?) kind (← marks.toNat?) field
      (← startByte.toNat?) (← endByte.toNat?)
      ⟨← startRow.toNat?, ← startColumn.toNat?⟩ ⟨← stopRow.toNat?, ← stopColumn.toNat?⟩
  | _ => none

/-- Read a listing. Empty lines are passed over. -/
def readListing? (text : String) : Option Node := do
  let lines := (text.toList.splitOnP (· = '\n')).map String.ofList
  ofRows? (← (lines.filter (· ≠ "")).mapM Row.read?)

/-- What the name of a listing has behind the name of its file. -/
def listingSuffix : String := ".rows"

/-- The file that a listing is about, if a path has the name of a listing. -/
def listed? (path : Path) : Option Path :=
  let text := path.text.toList
  let name := text.take (text.length - listingSuffix.length)
  if name ++ listingSuffix.toList = text then some ⟨String.ofList name⟩ else none

/-- The text of the file that a listing is about, with the tree of the listing. -/
def readListed? (files : FileTree) (listing : Path) : Option (String × Node) := do
  let path ← listed? listing
  let content ← (files.readText ⟨"/"⟩ path).toOption
  let tree ← readListing? (← (files.readText ⟨"/"⟩ listing).toOption)
  return (content, tree)

/-- The grammar that knows the files with a listing beside them. -/
def listedGrammar (files : FileTree) : Grammar :=
  let known := (files.listing ⟨"/"⟩).filterMap (readListed? files)
  fun content => known.lookup content

end LineCoach.Concrete
