/-!
# Concrete syntax

The tree that a grammar makes of a source text: every token is there, positions count bytes, and
a node can have a field name that its parent's rule gives to it. The grammar also marks what it
could not read.
-/

namespace LineCoach.Concrete

/-- A point as the grammar counts: lines from zero, columns in bytes. -/
structure Point where
  row : Nat
  column : Nat
deriving DecidableEq, Repr, Inhabited

/-- What the grammar says about one node, apart from its children. -/
structure Info where
  kind : String
  /-- Whether the node stands for a rule of the grammar and not for a mere token. -/
  named : Bool
  /-- The node covers text that the grammar could not read. -/
  isError : Bool
  /-- The node was put in where the grammar missed something. -/
  isMissing : Bool
  /-- There is an error in the node or below it. -/
  hasError : Bool
  /-- The name that the parent's rule gives to the node, empty when it gives none. -/
  field : String
  /-- First byte of the node. -/
  startByte : Nat
  /-- Byte just behind the node. -/
  endByte : Nat
  start : Point
  stop : Point
deriving DecidableEq, Repr, Inhabited

/-- A node of the concrete tree. -/
inductive Node where
  | node (info : Info) (children : List Node)

namespace Node

/-- What the grammar says about the node. -/
def info : Node → Info
  | node info _ => info

/-- The children in source order, tokens included. -/
def children : Node → List Node
  | node _ children => children

/-- The name of the node's rule or token. -/
def kind (n : Node) : String :=
  n.info.kind

/-- The children that stand for rules of the grammar. -/
def namedChildren (n : Node) : List Node :=
  n.children.filter (·.info.named)

/-- The first child with this field name. -/
def childByField? (n : Node) (field : String) : Option Node :=
  n.children.find? (·.info.field = field)

mutual

/-- Number of nodes of the tree below and with `n`. -/
def size : Node → Nat
  | node _ children => sizes children + 1

/-- Number of nodes of a list of trees. -/
def sizes : List Node → Nat
  | [] => 0
  | n :: rest => size n + sizes rest

end

theorem size_pos (n : Node) : 0 < n.size := by
  cases n with
  | node info children => rw [size]; omega

theorem sizes_children (n : Node) : sizes n.children + 1 = n.size := by
  cases n with
  | node info list => rw [Node.children, size]

mutual

/-- The nodes of the tree in pre-order. -/
def preorder : Node → List Info
  | node info children => info :: preorders children

/-- The nodes of a list of trees in pre-order. -/
def preorders : List Node → List Info
  | [] => []
  | n :: rest => preorder n ++ preorders rest

end

end Node

/-- A line of a listing of a tree: a node in pre-order with its depth. -/
structure Row where
  depth : Nat
  info : Info
deriving Repr, Inhabited

/-- Read the trees of a listing at a depth, and the rows that do not belong to them. At most
`fuel` rows are read; the number of rows is enough. -/
def readForest (depth : Nat) : (fuel : Nat) → List Row → List Node × List Row
  | 0, rows => ([], rows)
  | _ + 1, [] => ([], [])
  | fuel + 1, row :: rows =>
    if row.depth < depth then ([], row :: rows)
    else
      let (children, afterChildren) := readForest (row.depth + 1) fuel rows
      let (siblings, rest) := readForest depth fuel afterChildren
      (.node row.info children :: siblings, rest)

/-- The tree of a listing, when it starts with a root. -/
def ofRows? (rows : List Row) : Option Node :=
  (readForest 0 rows.length rows).1.head?

end LineCoach.Concrete
