import Std.Data.TreeMap
import LineCoach.Tree.Node

/-!
# Syntax trees

The nodes of a file stand in one array in pre-order. So the node that follows another in source
order stands right behind it, and a node and its descendants are neighbours. An index holds, for
each line, the first node other than the root that starts there. A tree is made with two promises:
every node stands at the place that it names, and the index is the one of its nodes.
-/

namespace LineCoach

namespace Tree

/-- Every node stands at the place that it names. -/
def Placed (nodes : Array Node) : Prop :=
  ∀ (place : Nat) (node : Node), nodes[place]? = some node → node.id = place

namespace Placed

variable {nodes : Array Node}

/-- There is nothing out of place where there is nothing. -/
theorem empty : Placed #[] := by
  intro place node hnode
  simp at hnode

/-- A node that names the next free place can be put there. -/
theorem push (h : Placed nodes) {node : Node} (hid : node.id = nodes.size) :
    Placed (nodes.push node) := by
  intro place found hfound
  rw [Array.getElem?_push] at hfound
  split at hfound
  · next hplace =>
    cases hfound
    rw [hid, hplace]
  · exact h place found hfound

/-- A change that keeps a node's place keeps every node in place. -/
theorem modify (h : Placed nodes) (place : Nat) {change : Node → Node}
    (hid : ∀ node, (change node).id = node.id) : Placed (nodes.modify place change) := by
  intro other found hfound
  rw [Array.getElem?_modify] at hfound
  split at hfound
  · obtain ⟨node, hnode, rfl⟩ := Option.map_eq_some_iff.1 hfound
    rw [hid, h other node hnode]
  · exact h other found hfound

end Placed

/-- Record the node as the first of its line, unless the line has one already. -/
def indexNode (index : Std.TreeMap Nat Nat) (node : Node) : Std.TreeMap Nat Nat :=
  index.insertIfNew node.startLine node.id

/-- For each line the place of the first node that starts there. The root never is the first
node of a line. -/
def lineIndex (nodes : Array Node) : Std.TreeMap Nat Nat :=
  (nodes.toList.drop 1).foldl indexNode {}

end Tree

/-- The nodes of a file in pre-order, with the first node of each line. -/
structure Tree where
  nodes : Array Tree.Node
  firstOnLine : Std.TreeMap Nat Nat
  placed : Tree.Placed nodes
  indexed : firstOnLine = Tree.lineIndex nodes

namespace Tree

/-- No node starts on the line, as inside a literal of several lines. -/
structure UnresolvedLine where
  line : Nat
deriving DecidableEq, Repr

namespace UnresolvedLine

/-- The reason in words. -/
def message (reason : UnresolvedLine) : String :=
  s!"no syntax node starts on line {reason.line}"

end UnresolvedLine

/-- The tree with these nodes. -/
def ofNodes (nodes : Array Node) (placed : Placed nodes) : Tree where
  nodes := nodes
  firstOnLine := lineIndex nodes
  placed := placed
  indexed := rfl

/-- Number of nodes, the root included. -/
def size (tree : Tree) : Nat :=
  tree.nodes.size

/-- The node at a place. -/
def get? (tree : Tree) (id : Nat) : Option Node :=
  tree.nodes[id]?

/-- The root, which is the whole file. -/
def root? (tree : Tree) : Option Node :=
  tree.get? 0

/-- The next node in source order. -/
def next? (tree : Tree) (id : Nat) : Option Node :=
  tree.get? (id + 1)

/-- A node and all its descendants, in pre-order. -/
def subtree (tree : Tree) (node : Node) : List Node :=
  (tree.nodes.extract node.id node.subtreeEnd).toList

/-- All descendants of a node, in pre-order. -/
def descendants (tree : Tree) (node : Node) : List Node :=
  (tree.subtree node).drop 1

/-- The children of a node, in source order. -/
def children (tree : Tree) (node : Node) : List Node :=
  node.children.filterMap tree.get?

/-- The first node in pre-order, other than the root, that starts on `line`. -/
def locate (tree : Tree) (line : Nat) : Except UnresolvedLine Node :=
  match (tree.firstOnLine[line]?).bind tree.get? with
  | some node => .ok node
  | none => .error ⟨line⟩

/-- The nodes that occupy the line of `anchor`: the anchor, and what follows it in source order
as long as it shares the anchor's single line. -/
def sameLineNodes (tree : Tree) (anchor : Node) : List Node :=
  anchor :: (tree.nodes.toList.drop (anchor.id + 1)).takeWhile
    (fun node => anchor.span.sharesLineWith node.span)

end Tree

end LineCoach
