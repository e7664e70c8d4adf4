import Mathlib.Data.List.Basic
import LineCoach.Tree.Basic

/-!
# Rose trees and their stored form

A rose tree holds its nodes inside one another. Its stored form lists them in pre-order, gives
each the place at which it stands, and writes down the links between them as places. A subtree is
stored as an unbroken part of the list, and that part is the stored form of the subtree from its
own place on; the facts about links all come from this one.
-/

namespace LineCoach.Tree

/-- What a node says about itself, apart from its place and its links. -/
structure Content where
  kind : Kind
  label : String
  span : Span
  detail : Option Detail
deriving DecidableEq, Repr

/-- A tree whose nodes hold their children. -/
inductive Rose where
  | node (content : Content) (children : List Rose)

namespace Rose

/-- What the root says about itself. -/
def content : Rose → Content
  | node content _ => content

/-- The subtrees right below the root. -/
def children : Rose → List Rose
  | node _ children => children

mutual

/-- Number of nodes of a tree. -/
def size : Rose → Nat
  | node _ children => sizes children + 1

/-- Number of nodes of a list of trees. -/
def sizes : List Rose → Nat
  | [] => 0
  | tree :: rest => size tree + sizes rest

end

/-- The places of the roots of trees that are stored one behind the other. -/
def places (place : Nat) : List Rose → List Nat
  | [] => []
  | tree :: rest => place :: places (place + tree.size) rest

/-- The stored form of the root of a tree. -/
def head (parent : Option Nat) (place : Nat) (tree : Rose) : Node where
  id := place
  kind := tree.content.kind
  label := tree.content.label
  span := tree.content.span
  parent := parent
  children := places (place + 1) tree.children
  subtreeEnd := place + tree.size
  detail := tree.content.detail

mutual

/-- The stored form of a tree: its nodes in pre-order, the root at `place` and below `parent`. -/
def flatten (parent : Option Nat) (place : Nat) : Rose → List Node
  | node content children =>
    head parent place (node content children) :: flattens (some place) (place + 1) children

/-- The stored form of trees with a common parent, one behind the other. -/
def flattens (parent : Option Nat) (place : Nat) : List Rose → List Node
  | [] => []
  | tree :: rest => flatten parent place tree ++ flattens parent (place + tree.size) rest

end

/-- A tree has at least its root. -/
theorem size_pos (tree : Rose) : 0 < tree.size := by
  cases tree with
  | node content children => rw [size]; omega

/-- The nodes below the root are all but one. -/
theorem sizes_children (tree : Rose) : sizes tree.children + 1 = tree.size := by
  cases tree with
  | node content list => rw [children, size]

/-- The stored form is the root followed by the trees right below it. -/
theorem flatten_eq (parent : Option Nat) (place : Nat) (tree : Rose) :
    tree.flatten parent place =
      tree.head parent place :: flattens (some place) (place + 1) tree.children := by
  cases tree with
  | node content list => rw [flatten, children]

@[simp]
theorem flattens_singleton (parent : Option Nat) (place : Nat) (tree : Rose) :
    flattens parent place [tree] = tree.flatten parent place := by
  rw [flattens, flattens, List.append_nil]

theorem sizes_append (first second : List Rose) :
    sizes (first ++ second) = sizes first + sizes second := by
  induction first with
  | nil => simp only [List.nil_append, sizes, Nat.zero_add]
  | cons tree rest ih => simp only [List.cons_append, sizes, ih, Nat.add_assoc]

theorem places_append (place : Nat) (first second : List Rose) :
    places place (first ++ second) = places place first ++ places (place + sizes first) second := by
  induction first generalizing place with
  | nil => simp only [List.nil_append, places, sizes, Nat.add_zero]
  | cons tree rest ih => simp only [List.cons_append, places, sizes, ih, Nat.add_assoc]

theorem flattens_append (parent : Option Nat) (place : Nat) (first second : List Rose) :
    flattens parent place (first ++ second) =
      flattens parent place first ++ flattens parent (place + sizes first) second := by
  induction first generalizing place with
  | nil => simp only [List.nil_append, flattens, sizes, Nat.add_zero]
  | cons tree rest ih =>
    simp only [List.cons_append, flattens, sizes, ih, Nat.add_assoc, List.append_assoc]

mutual

/-- The stored form has one entry for each node. -/
theorem length_flatten (parent : Option Nat) (place : Nat) :
    (tree : Rose) → (tree.flatten parent place).length = tree.size
  | node content children => by
    rw [flatten, List.length_cons, length_flattens, size]

theorem length_flattens (parent : Option Nat) (place : Nat) :
    (trees : List Rose) → (flattens parent place trees).length = sizes trees
  | [] => rfl
  | tree :: rest => by
    rw [flattens, List.length_append, length_flatten, length_flattens, sizes]

end

mutual

/-- The nodes are numbered without a gap, in the order in which they are stored. -/
theorem map_id_flatten (parent : Option Nat) (place : Nat) :
    (tree : Rose) → (tree.flatten parent place).map Node.id = List.range' place tree.size
  | node content children => by
    rw [flatten, List.map_cons, map_id_flattens, size, List.range'_succ]
    rfl

theorem map_id_flattens (parent : Option Nat) (place : Nat) :
    (trees : List Rose) → (flattens parent place trees).map Node.id =
      List.range' place (sizes trees)
  | [] => rfl
  | tree :: rest => by
    rw [flattens, List.map_append, map_id_flatten, map_id_flattens, sizes, List.range'_append_1]

end

/-- The node at an offset names the place at that offset. -/
theorem id_of_getElem? {parent : Option Nat} {place offset : Nat} {tree : Rose} {found : Node}
    (h : (tree.flatten parent place)[offset]? = some found) : found.id = place + offset := by
  have hid : ((tree.flatten parent place).map Node.id)[offset]? = some found.id := by
    rw [List.getElem?_map, h, Option.map_some]
  rw [map_id_flatten] at hid
  obtain ⟨hlt, heq⟩ := List.getElem?_eq_some_iff.1 hid
  rw [← heq, List.getElem_range', Nat.one_mul]

/-- The stored form of a whole tree has every node at its place. -/
theorem placed_flatten (tree : Rose) : Placed (tree.flatten none 0).toArray := by
  intro place found hfound
  rw [List.getElem?_toArray] at hfound
  rw [id_of_getElem? hfound, Nat.zero_add]

end Rose

/-- The tree whose nodes are stored from a rose tree. -/
def ofRose (rose : Rose) : Tree :=
  ofNodes (rose.flatten none 0).toArray rose.placed_flatten

/-- A tree is given by its nodes, since they determine the index. -/
theorem eq_of_nodes {first second : Tree} (h : first.nodes = second.nodes) : first = second := by
  obtain ⟨nodes, index, placed, hindex⟩ := first
  obtain ⟨nodes', index', placed', hindex'⟩ := second
  cases h
  subst hindex hindex'
  rfl

end LineCoach.Tree
