import Mathlib.Data.List.Nodup
import LineCoach.Proofs.Tree.Links
import LineCoach.Proofs.Tree.Locate

/-!
# Nodes and their children

Links name places. In a tree with consistent links they can be followed from node to node: a child
is a node that names its parent, it stands behind the parent and has no other one, and what is below
a node of a subtree is in the subtree.
-/

namespace LineCoach.Tree

/-- The nodes of a tree stand in the order of their places. -/
theorem pairwise_id (tree : Tree) :
    tree.nodes.toList.Pairwise fun first second => first.id < second.id := by
  rw [List.pairwise_iff_getElem]
  intro place later hplace hlater hlt
  have hid (other : Nat) (hother : other < tree.nodes.toList.length) :
      tree.nodes.toList[other].id = other :=
    tree.placed other _ (by rw [← Array.getElem?_toList, List.getElem?_eq_getElem hother])
  rw [hid, hid]
  exact hlt

/-- The place of a node is inside the tree. -/
theorem id_lt_size {tree : Tree} {node : Node} (h : node ∈ tree.nodes.toList) :
    node.id < tree.size :=
  (Array.getElem?_eq_some_iff.1 (tree.get?_id h)).1

/-- A node that is found is a node of the tree. -/
theorem mem_of_get? {tree : Tree} {place : Nat} {node : Node} (h : tree.get? place = some node) :
    node ∈ tree.nodes.toList := by
  rw [get?, ← Array.getElem?_toList] at h
  exact List.mem_of_getElem? h

/-- The nodes of a subtree are nodes of the tree, in the same order. -/
theorem subtree_sublist (tree : Tree) (node : Node) :
    (tree.subtree node).Sublist tree.nodes.toList := by
  rw [subtree, Array.toList_extract, List.extract_eq_take_drop]
  exact (List.take_sublist _ _).trans (List.drop_sublist _ _)

namespace Linked

variable {tree : Tree} {node child : Node}

/-- In a tree with consistent links a node below the root is listed by its parent. -/
theorem exists_parent (h : tree.Linked) {place : Nat} (hnode : tree.get? place = some node)
    (hpos : 0 < place) :
    ∃ above upper, above < place ∧ node.parent = some above ∧ tree.get? above = some upper ∧
      place ∈ upper.children := by
  obtain ⟨above, hparent, hlt⟩ := h.parent_lt hnode hpos
  have hsize : place < tree.nodes.size := (Array.getElem?_eq_some_iff.1 hnode).1
  have hupper : tree.get? above = some tree.nodes[above] := Array.getElem?_eq_getElem _
  exact ⟨above, _, hlt, hparent, hupper, (h.mem_children_iff hupper).2 ⟨node, hnode, hparent⟩⟩

/-- The children of a node are the nodes that name it as their parent. -/
theorem mem_children (h : tree.Linked) (hnode : node ∈ tree.nodes.toList) :
    child ∈ tree.children node ↔ child ∈ tree.nodes.toList ∧ child.parent = some node.id := by
  have hlisted (place : Nat) : place ∈ node.children ↔
      ∃ found, tree.get? place = some found ∧ found.parent = some node.id :=
    h.mem_children_iff (tree.get?_id hnode)
  rw [children, List.mem_filterMap]
  constructor
  · rintro ⟨place, hplace, hchild⟩
    obtain ⟨found, hfound, hparent⟩ := (hlisted place).1 hplace
    rw [hchild, Option.some.injEq] at hfound
    exact ⟨mem_of_get? hchild, hfound ▸ hparent⟩
  · rintro ⟨hmem, hparent⟩
    have hchild := tree.get?_id hmem
    exact ⟨child.id, (hlisted child.id).2 ⟨child, hchild, hparent⟩, hchild⟩

/-- A node has one parent. -/
theorem parent_unique (h : tree.Linked) {other : Node} (hnode : node ∈ tree.nodes.toList)
    (hother : other ∈ tree.nodes.toList) (hchild : child ∈ tree.children node)
    (hchild' : child ∈ tree.children other) : node = other := by
  have hparent := ((h.mem_children hnode).1 hchild).2
  have hparent' := ((h.mem_children hother).1 hchild').2
  have hid : node.id = other.id := Option.some.inj (hparent.symm.trans hparent')
  have hfound := tree.get?_id hnode
  rw [hid, tree.get?_id hother, Option.some.injEq] at hfound
  exact hfound.symm

/-- A child stands behind its parent. -/
theorem id_lt_of_mem_children (h : tree.Linked) (hnode : node ∈ tree.nodes.toList)
    (hchild : child ∈ tree.children node) : node.id < child.id := by
  obtain ⟨hmem, hparent⟩ := (h.mem_children hnode).1 hchild
  have hfound := tree.get?_id hmem
  rcases Nat.eq_zero_or_pos child.id with hzero | hpos
  · obtain ⟨root, hroot, hnone⟩ := h.root
    rw [hzero, ← root?, hroot, Option.some.injEq] at hfound
    rw [← hfound, hnone] at hparent
    cases hparent
  · obtain ⟨above, habove, hlt⟩ := h.parent_lt hfound hpos
    obtain rfl : above = node.id := Option.some.inj (habove.symm.trans hparent)
    exact hlt

/-- The ids that a node lists as its children lie behind its own, inside the tree. -/
theorem child_bounds (h : tree.Linked) (hnode : node ∈ tree.nodes.toList) {id : Nat}
    (hid : id ∈ node.children) : node.id < id ∧ id < tree.size := by
  obtain ⟨found, hfound, hparent⟩ := (h.mem_children_iff (tree.get?_id hnode)).1 hid
  have hmem := mem_of_get? hfound
  have hlt := h.id_lt_of_mem_children hnode ((h.mem_children hnode).2 ⟨hmem, hparent⟩)
  rw [tree.placed id found hfound] at hlt
  exact ⟨hlt, (Array.getElem?_eq_some_iff.1 hfound).1⟩

/-- A node lists each of its children once. -/
theorem nodup_children (h : tree.Linked) (hnode : node ∈ tree.nodes.toList) :
    (tree.children node).Nodup := by
  have hlisted : node.children.Nodup := (h.children_ordered (tree.get?_id hnode)).imp Nat.ne_of_lt
  refine hlisted.filterMap ?_
  intro place other found hplace hother
  rw [← tree.placed place found hplace, ← tree.placed other found hother]

/-- What is below a node of a subtree is in the subtree. -/
theorem mem_subtree_of_mem_children (h : tree.Linked) {anchor : Node}
    (hanchor : anchor ∈ tree.nodes.toList) (hnode : node ∈ tree.subtree anchor)
    (hchild : child ∈ tree.children node) : child ∈ tree.subtree anchor := by
  have hmem := (tree.subtree_sublist anchor).subset hnode
  obtain ⟨hchildMem, hparent⟩ := (h.mem_children hmem).1 hchild
  have hreach (place : Nat) : place ∈ (tree.subtree anchor).map Node.id ↔
      Relation.ReflTransGen tree.HasChild anchor.id place :=
    h.mem_subtree_iff (tree.get?_id hanchor)
  have hlisted :=
    (h.mem_children_iff (tree.get?_id hmem)).2 ⟨child, tree.get?_id hchildMem, hparent⟩
  have hbelow := (hreach child.id).2
    (((hreach node.id).1 (List.mem_map_of_mem hnode)).tail ⟨node, tree.get?_id hmem, hlisted⟩)
  obtain ⟨found, hfound, hid⟩ := List.mem_map.1 hbelow
  have hsame := tree.get?_id ((tree.subtree_sublist anchor).subset hfound)
  rw [hid, tree.get?_id hchildMem, Option.some.injEq] at hsame
  exact hsame ▸ hfound

end Linked

end LineCoach.Tree
