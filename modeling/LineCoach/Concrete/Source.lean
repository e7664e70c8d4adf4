import LineCoach.Concrete.Basic
import LineCoach.Text.Blank
import LineCoach.Text.Utf8
import LineCoach.Tree.Node

/-!
# A source text and what its concrete nodes say

The grammar's points are turned into positions in characters, and the nodes of assignments and
functions are asked for the numbers and names that classifiers need.
-/

namespace LineCoach.Concrete

open LineCoach.Tree (Position Span AssignmentShape Signature Detail Kind)

/-- A source text with the text from each of its lines on. -/
structure Source where
  text : List Char
  lines : Array (List Char)

namespace Source

/-- Prepare a text. -/
def ofString (content : String) : Source :=
  ⟨content.toList, (Text.lineStarts content.toList).toArray⟩

/-- The position of a point. A column that does not end between two characters of the text is
kept as it is. -/
def position (source : Source) (point : Point) : Position :=
  let line := (source.lines[point.row]?).getD []
  let column := match Text.takeBytes? point.column line with
    | some before => before.length
    | none => point.column
  ⟨point.row + 1, column⟩

/-- The span of a node. -/
def span (source : Source) (n : Node) : Span :=
  ⟨source.position n.info.start, source.position n.info.stop⟩

/-- The text that a node covers, empty when its bounds are not between characters. -/
def slice (source : Source) (n : Node) : List Char :=
  (Text.sliceBytes? n.info.startByte n.info.endByte source.text).getD []

end Source

/-- Kinds of nodes that hold one name or value each between commas. -/
def sequenceKinds : List String :=
  ["pattern_list", "tuple_pattern", "list_pattern", "expression_list", "tuple"]

namespace Node

/-- How many names or values a side of an assignment has. -/
def arity (n : Node) : Nat :=
  if sequenceKinds.contains n.kind then (n.namedChildren.filter (·.kind ≠ "comment")).length
  else 1

/-- The shape of an assignment. Without a left side it binds one name, without a right side it
has no value. -/
def assignmentShape (n : Node) : AssignmentShape where
  targets := ((n.childByField? "left").map arity).getD 1
  values := ((n.childByField? "right").map arity).getD 0

mutual

/-- The name that a parameter binds, found by following first named children. Separators have
none and bind nothing. -/
def parameterName? (source : Source) : Node → Option (List Char)
  | node info children =>
    if info.kind = "identifier" then some (source.slice (node info children))
    else if info.kind = "comment" then none
    else firstParameterName? source children

/-- The name bound by the first named node of a list. -/
def firstParameterName? (source : Source) : List Node → Option (List Char)
  | [] => none
  | n :: rest => if n.info.named then parameterName? source n else firstParameterName? source rest

end

/-- The signature of a function, when it has a name and a list of parameters. -/
def signature? (source : Source) (n : Node) : Option Signature := do
  let name ← n.childByField? "name"
  let parameters ← n.childByField? "parameters"
  return {
    name := String.ofList (source.slice name)
    parameters := (parameters.namedChildren.filterMap (parameterName? source)).map String.ofList
    width := (Text.respaced (source.slice parameters)).length }

end Node

/-- The kind of the tree that a kind of the grammar stands for. -/
def kindOf (kind : String) : Kind :=
  if kind = "comment" then .comment
  else if kind = "assignment" || kind = "augmented_assignment" then .assignment
  else if kind = "tuple" || kind = "pattern_list" || kind = "expression_list"
      || kind = "tuple_pattern" then .tuple
  else if kind = "function_definition" then .functionDefinition
  else if kind = "binary_operator" then .binaryOperator
  else if kind = "parenthesized_expression" then .parenthesized
  else .other

/-- What the tree records about a node, by its kind. -/
def detail? (source : Source) (n : Node) : Option Detail :=
  match kindOf n.kind with
  | .assignment => some (.assignment n.assignmentShape)
  | .functionDefinition => (n.signature? source).map .function
  | _ => none

end LineCoach.Concrete
