import LineCoach.Proofs.Concrete.Lowering

/-!
# The nodes that a lowered tree has

Lowering drops nodes and takes wrappers away, but it does not move anything: what is left of a
concrete tree, in pre-order, is what the stored tree says, node by node. So the concrete nodes that
are kept and the stored nodes below the root can be counted off against each other.
-/

namespace LineCoach

/-- What a stored node says about itself, apart from its place and its links. -/
def Tree.Node.content (node : Tree.Node) : Tree.Content :=
  ⟨node.kind, node.label, node.span, node.detail⟩

namespace Concrete

open LineCoach.Tree (Rose)

namespace Node

mutual

/-- The parts of a node that get a node of their own, in pre-order. Nothing is left of what is
skipped, and a wrapper leaves what is below it. -/
def kept : Node → List Node
  | node info children =>
    if !info.named || stringPartKinds.contains info.kind then []
    else if transparentKinds.contains info.kind then keptAll children
    else node info children :: keptAll children

/-- What is left of nodes, one after the other. -/
def keptAll : List Node → List Node
  | [] => []
  | n :: rest => kept n ++ keptAll rest

end

mutual

/-- What is kept of a node is part of it. -/
theorem kept_sublist : (n : Node) → n.kept.Sublist n.parts
  | node info children => by
    rw [kept, parts]
    split
    · exact List.nil_sublist _
    · split
      · exact (keptAll_sublist children).cons _
      · exact (keptAll_sublist children).cons_cons _

theorem keptAll_sublist : (nodes : List Node) → (keptAll nodes).Sublist (partsAll nodes)
  | [] => by
    rw [keptAll, partsAll]
  | n :: rest => by
    rw [keptAll, partsAll]
    exact (kept_sublist n).append (keptAll_sublist rest)

end

/-- What is kept below a node is part of it. -/
theorem mem_parts_of_mem_keptAll {n part : Node} (h : part ∈ keptAll n.children) :
    part ∈ n.parts :=
  mem_parts_of_mem_partsAll ((keptAll_sublist n.children).subset h)

end Node

mutual

/-- The stored form of what a node leaves says what is kept of the node says. -/
theorem map_content_lowered (source : Source) (parent : Option Nat) (place : Nat) :
    (n : Node) → (Rose.flattens parent place (lowered source n)).map Tree.Node.content =
      n.kept.map (content source)
  | .node info children => by
    rw [lowered, Node.kept]
    split
    · rw [Rose.flattens]
      rfl
    · split
      · exact map_content_lowereds source parent place children
      · rw [Rose.flattens_singleton, Rose.flatten, List.map_cons, List.map_cons,
          map_content_lowereds]
        rfl

theorem map_content_lowereds (source : Source) (parent : Option Nat) (place : Nat) :
    (nodes : List Node) → (Rose.flattens parent place (lowereds source nodes)).map
      Tree.Node.content = (Node.keptAll nodes).map (content source)
  | [] => by
    rw [lowereds, Rose.flattens, Node.keptAll]
    rfl
  | n :: rest => by
    rw [lowereds, Rose.flattens_append, List.map_append, map_content_lowered, map_content_lowereds,
      Node.keptAll, List.map_append]

end

/-- The nodes of a lowered tree are those of its rose tree in pre-order. -/
theorem toList_nodes_lower (source : Source) (root : Node) :
    (lower source root).nodes.toList = (loweredRoot source root).flatten none 0 := by
  rw [lower_eq_plantAll, build_plantAll]
  rfl

/-- The stored nodes below the root say, in order, what the concrete nodes say that are kept. -/
theorem map_content_lower (source : Source) (root : Node) :
    ((lower source root).nodes.toList.drop 1).map Tree.Node.content =
      (Node.keptAll root.children).map (content source) := by
  rw [toList_nodes_lower, Rose.flatten_eq, List.drop_one, List.tail_cons]
  exact map_content_lowereds source _ _ root.children

/-- Every concrete node that is kept below the root has a stored node. -/
theorem exists_stored_of_mem_keptAll (source : Source) {root part : Node}
    (h : part ∈ Node.keptAll root.children) :
    ∃ node ∈ (lower source root).nodes.toList.drop 1, node.content = content source part := by
  have hmem : content source part ∈ (Node.keptAll root.children).map (content source) :=
    List.mem_map_of_mem h
  rw [← map_content_lower] at hmem
  exact List.mem_map.1 hmem

/-- Every stored node below the root is that of a concrete node that is kept. -/
theorem exists_kept_of_mem_drop {source : Source} {root : Node} {node : Tree.Node}
    (h : node ∈ (lower source root).nodes.toList.drop 1) :
    ∃ part ∈ Node.keptAll root.children, node.content = content source part := by
  have hmem : node.content ∈ ((lower source root).nodes.toList.drop 1).map Tree.Node.content :=
    List.mem_map_of_mem h
  rw [map_content_lower] at hmem
  obtain ⟨part, hpart, hsays⟩ := List.mem_map.1 hmem
  exact ⟨part, hpart, hsays.symm⟩

end Concrete

end LineCoach
