import LineCoach.Tree.Span

/-!
# Nodes of a syntax tree

The tree knows few kinds of nodes, those that the classifiers ask about. A node names its
parent and its children by their places in the tree, and it may carry what the parser learnt
about an assignment or a function.
-/

namespace LineCoach.Tree

/-- The kinds of nodes that classifiers care about. -/
inductive Kind where
  | comment
  /-- A plain, annotated or augmented assignment. -/
  | assignment
  /-- A tuple, or a bare list of targets or values between commas. -/
  | tuple
  | functionDefinition
  /-- An arithmetic or bitwise operation with two sides. -/
  | binaryOperator
  /-- An expression between parentheses. -/
  | parenthesized
  | other
deriving DecidableEq, Repr, Inhabited

namespace Kind

/-- The name of a kind in messages. -/
def name : Kind → String
  | comment => "comment"
  | assignment => "assignment"
  | tuple => "tuple"
  | functionDefinition => "function-definition"
  | binaryOperator => "binary-operator"
  | parenthesized => "parenthesized"
  | other => "other"

/-- Every kind once. -/
def all : List Kind :=
  [comment, assignment, tuple, functionDefinition, binaryOperator, parenthesized, other]

/-- The kind with this name. -/
def ofName? (name : String) : Option Kind :=
  all.find? (·.name = name)

theorem ofName?_name (kind : Kind) : ofName? kind.name = some kind := by
  cases kind <;> decide

end Kind

/-- How many names an assignment binds and how many values it has. -/
structure AssignmentShape where
  targets : Nat
  values : Nat
deriving DecidableEq, Repr

/-- The name and the parameters of a function. -/
structure Signature where
  name : String
  /-- The bound names of the parameters, in order. -/
  parameters : List String
  /-- Width of the list between parentheses, in characters, with single spaces. -/
  width : Nat
deriving DecidableEq, Repr

/-- What a parser records about a node beyond its kind. -/
inductive Detail where
  | assignment (shape : AssignmentShape)
  | function (signature : Signature)
deriving DecidableEq, Repr

/-- A node of a tree that is stored in pre-order. -/
structure Node where
  /-- Place of the node in the tree. -/
  id : Nat
  kind : Kind
  /-- Name that the grammar gives to the node. -/
  label : String
  span : Span
  /-- Place of the parent; the root has none. -/
  parent : Option Nat
  /-- Places of the children, in source order. -/
  children : List Nat
  /-- Place just behind the last descendant. -/
  subtreeEnd : Nat
  detail : Option Detail
deriving DecidableEq, Repr, Inhabited

namespace Node

/-- The line on which the node starts. -/
def startLine (node : Node) : Nat :=
  node.span.start.line

/-- Whether the node is of this kind. -/
def is (node : Node) (kind : Kind) : Bool :=
  node.kind = kind

/-- The shape of an assignment, when the parser recorded one. -/
def assignment? (node : Node) : Option AssignmentShape :=
  match node.detail with
  | some (.assignment shape) => some shape
  | _ => none

/-- The signature of a function, when the parser recorded one. -/
def signature? (node : Node) : Option Signature :=
  match node.detail with
  | some (.function signature) => some signature
  | _ => none

/-- The node with one more child, behind those that it has. -/
def addChild (node : Node) (child : Nat) : Node :=
  { node with children := node.children ++ [child] }

/-- The node with its subtree ending just before `place`. -/
def endAt (node : Node) (place : Nat) : Node :=
  { node with subtreeEnd := place }

/-- The node with this detail, in place of what it had. -/
def withDetail (node : Node) (detail : Detail) : Node :=
  { node with detail := some detail }

end Node

end LineCoach.Tree
