import Mathlib.Data.List.Basic
import LineCoach.Tree.Basic

/-!
# Finding the first node of a line

The index of a tree is filled in one pass over its nodes. What it answers is what a search through
the nodes answers: the first one other than the root that starts on the line. It never names a
place outside the tree, so that `locate` fails only where no node starts.
-/

namespace LineCoach.Tree

/-- The first node other than the root that starts on `line`, found by looking at every node. -/
def firstOn? (tree : Tree) (line : Nat) : Option Node :=
  (tree.nodes.toList.drop 1).find? (fun node => node.startLine = line)

/-- A pass over nodes records the first one of a line that had none before. -/
theorem getElem?_foldl_indexNode (index : Std.TreeMap Nat Nat) (nodes : List Node) (line : Nat) :
    (nodes.foldl indexNode index)[line]? =
      index[line]?.or ((nodes.find? (fun node => node.startLine = line)).map Node.id) := by
  induction nodes generalizing index with
  | nil => simp
  | cons node rest ih =>
    rw [List.foldl_cons, ih, indexNode, Std.TreeMap.getElem?_insertIfNew, List.find?_cons]
    simp only [Nat.compare_eq_eq]
    by_cases hline : node.startLine = line
    · subst hline
      by_cases hmem : node.startLine ∈ index <;> simp [hmem]
    · simp [hline]

/-- The index of a tree answers with the place of the first node that starts on a line. -/
theorem getElem?_firstOnLine (tree : Tree) (line : Nat) :
    tree.firstOnLine[line]? = (tree.firstOn? line).map Node.id := by
  rw [tree.indexed, lineIndex, getElem?_foldl_indexNode, Std.TreeMap.getElem?_emptyc, Option.none_or]
  rfl

/-- A node of a tree is found at the place that it names. -/
theorem get?_id (tree : Tree) {node : Node} (h : node ∈ tree.nodes.toList) :
    tree.get? node.id = some node := by
  obtain ⟨place, hplace⟩ := List.getElem?_of_mem h
  rw [Array.getElem?_toList] at hplace
  rw [get?, tree.placed place node hplace, hplace]

/-- The first node of a line is a node of the tree. -/
theorem mem_of_firstOn? {tree : Tree} {line : Nat} {node : Node} (h : tree.firstOn? line = some node) :
    node ∈ tree.nodes.toList :=
  List.mem_of_mem_drop (List.mem_of_find?_eq_some h)

/-- The indexed search finds the first node of a line, and fails when there is none. -/
theorem locate_eq (tree : Tree) (line : Nat) :
    tree.locate line =
      match tree.firstOn? line with
      | some node => .ok node
      | none => .error ⟨line⟩ := by
  rw [locate, getElem?_firstOnLine]
  cases hfirst : tree.firstOn? line with
  | none => rfl
  | some node =>
    rw [Option.map_some, Option.bind_some, get?_id tree (mem_of_firstOn? hfirst)]

/-- The index names places of the tree only. -/
theorem lt_size_of_firstOnLine {tree : Tree} {line place : Nat}
    (h : tree.firstOnLine[line]? = some place) : place < tree.size := by
  rw [getElem?_firstOnLine] at h
  obtain ⟨node, hnode, rfl⟩ := Option.map_eq_some_iff.1 h
  exact (Array.getElem?_eq_some_iff.1 (get?_id tree (mem_of_firstOn? hnode))).1

end LineCoach.Tree
