import Mathlib.Logic.Relation
import Mathlib.Order.Defs.LinearOrder
import LineCoach.Proofs.Tree.Rose

/-!
# Links of a stored tree

A tree that is stored from a rose tree has consistent links: parents come before their children,
a node is listed as a child exactly where its parent says so, and the slice that a node names as
its subtree holds the node and all that can be reached from it through children, in pre-order.
`Linked` collects these facts, and `linked_ofRose` proves them for every stored tree.
-/

namespace LineCoach.Tree

/-- The node at `child` is listed among the children of the node at `place`. -/
def HasChild (tree : Tree) (place child : Nat) : Prop :=
  ∃ node, tree.get? place = some node ∧ child ∈ node.children

/-- The links of a tree are consistent with each other and with the order of its nodes. -/
structure Linked (tree : Tree) : Prop where
  /-- The first node is the root, which has no parent. -/
  root : ∃ node, tree.root? = some node ∧ node.parent = none
  /-- Every other node has a parent that stands before it. -/
  parent_lt {place : Nat} {node : Node} : tree.get? place = some node → 0 < place →
    ∃ parent, node.parent = some parent ∧ parent < place
  /-- A node lists those nodes as children that name it as their parent, and no others. -/
  mem_children_iff {place child : Nat} {node : Node} : tree.get? place = some node →
    (child ∈ node.children ↔ ∃ found, tree.get? child = some found ∧ found.parent = some place)
  /-- Children are listed in the order in which they stand. -/
  children_ordered {place : Nat} {node : Node} : tree.get? place = some node →
    node.children.Pairwise (· < ·)
  /-- The subtree of a node holds at least the node. -/
  lt_subtreeEnd {place : Nat} {node : Node} : tree.get? place = some node →
    place < node.subtreeEnd
  /-- The subtree of a node ends inside the tree. -/
  subtreeEnd_le {place : Nat} {node : Node} : tree.get? place = some node →
    node.subtreeEnd ≤ tree.size
  /-- The subtree of a node has every place from its own up to the end once, in order. -/
  subtree_ids {place : Nat} {node : Node} : tree.get? place = some node →
    (tree.subtree node).map Node.id = List.range' place (node.subtreeEnd - place)
  /-- The subtree of a node holds what can be reached from it through children. -/
  mem_subtree_iff {place other : Nat} {node : Node} : tree.get? place = some node →
    (other ∈ (tree.subtree node).map Node.id ↔ Relation.ReflTransGen tree.HasChild place other)
  /-- The subtree of a node is the node followed by the subtrees of its children, in turn. -/
  subtree_eq {place : Nat} {node : Node} : tree.get? place = some node →
    tree.subtree node = node :: (tree.children node).flatMap tree.subtree

/-- A list of nodes stands in another one, from a place on. -/
def StandsAt (nodes : List Node) (place : Nat) (part : List Node) : Prop :=
  ∃ before after, nodes = before ++ part ++ after ∧ before.length = place

namespace StandsAt

variable {nodes part inner : List Node} {place offset : Nat}

/-- A list stands in itself from the start on. -/
theorem refl (nodes : List Node) : StandsAt nodes 0 nodes :=
  ⟨[], [], by simp, rfl⟩

/-- What stands in a part stands in the whole. -/
theorem trans (h : StandsAt nodes place part) (hinner : StandsAt part offset inner) :
    StandsAt nodes (place + offset) inner := by
  obtain ⟨before, after, rfl, rfl⟩ := h
  obtain ⟨before', after', rfl, rfl⟩ := hinner
  exact ⟨before ++ before', after' ++ after, by simp, by simp⟩

/-- Looking into a part is looking into the whole at the part's place. -/
theorem getElem? (h : StandsAt nodes place part) {node : Node} (hnode : part[offset]? = some node) :
    nodes[place + offset]? = some node := by
  obtain ⟨before, after, rfl, rfl⟩ := h
  have hlt : offset < part.length := (List.getElem?_eq_some_iff.1 hnode).1
  rw [List.append_assoc, List.getElem?_append_right (Nat.le_add_right _ _), Nat.add_sub_cancel_left,
    List.getElem?_append_left hlt, hnode]

/-- A part is what is left between its two ends. -/
theorem take_drop (h : StandsAt nodes place part) :
    (nodes.drop place).take part.length = part := by
  obtain ⟨before, after, rfl, rfl⟩ := h
  rw [List.append_assoc, List.drop_left, List.take_left]

/-- A part ends inside the whole. -/
theorem length_le (h : StandsAt nodes place part) : place + part.length ≤ nodes.length := by
  obtain ⟨before, after, rfl, rfl⟩ := h
  simp only [List.length_append]
  omega

end StandsAt

namespace Rose

/-- The places of trees lie between the first one and the end of the last tree. -/
theorem mem_places_bounds {place child : Nat} {trees : List Rose}
    (h : child ∈ places place trees) : place ≤ child ∧ child < place + sizes trees := by
  induction trees generalizing place with
  | nil => simp [places] at h
  | cons tree rest ih =>
    have hpos := tree.size_pos
    rw [sizes]
    rcases List.mem_cons.1 h with rfl | hrest
    · omega
    · have hbounds := ih hrest
      omega

/-- The places of trees are in order. -/
theorem places_ordered (place : Nat) (trees : List Rose) :
    (places place trees).Pairwise (· < ·) := by
  induction trees generalizing place with
  | nil => exact .nil
  | cons tree rest ih =>
    refine .cons ?_ (ih _)
    intro child hchild
    have hbounds := mem_places_bounds hchild
    have hpos := tree.size_pos
    omega

/-- The first of several trees is stored at the start. -/
theorem standsAt_first (parent : Option Nat) (place : Nat) (tree : Rose) (rest : List Rose) :
    StandsAt (flattens parent place (tree :: rest)) 0 (tree.flatten parent place) :=
  ⟨[], flattens parent (place + tree.size) rest, by rw [flattens, List.nil_append], rfl⟩

/-- The other trees are stored behind the first. -/
theorem standsAt_rest (parent : Option Nat) (place : Nat) (tree : Rose) (rest : List Rose) :
    StandsAt (flattens parent place (tree :: rest)) tree.size
      (flattens parent (place + tree.size) rest) :=
  ⟨tree.flatten parent place, [], by rw [flattens, List.append_nil], length_flatten ..⟩

/-- The trees right below a root are stored behind it. -/
theorem standsAt_children (parent : Option Nat) (place : Nat) (tree : Rose) :
    StandsAt (tree.flatten parent place) 1 (flattens (some place) (place + 1) tree.children) :=
  ⟨[tree.head parent place], [], by simp [flatten_eq], rfl⟩

/-- At the place of a child stands the stored form of the child. -/
theorem exists_of_mem_places (parent : Option Nat) {place child : Nat} {trees : List Rose}
    (h : child ∈ places place trees) :
    ∃ tree ∈ trees, ∃ offset, child = place + offset ∧
      StandsAt (flattens parent place trees) offset (tree.flatten parent child) := by
  induction trees generalizing place with
  | nil => simp [places] at h
  | cons first rest ih =>
    rcases List.mem_cons.1 h with rfl | hrest
    · exact ⟨first, List.mem_cons_self, 0, rfl, standsAt_first ..⟩
    · obtain ⟨tree, hmem, offset, hchild, hstands⟩ := ih hrest
      exact ⟨tree, List.mem_cons_of_mem _ hmem, first.size + offset, by omega,
        (standsAt_rest ..).trans hstands⟩

/-- Each of several trees is stored somewhere among them. -/
theorem exists_standsAt_of_mem (parent : Option Nat) {place : Nat} {tree : Rose} {trees : List Rose}
    (h : tree ∈ trees) :
    ∃ offset,
      StandsAt (flattens parent place trees) offset (tree.flatten parent (place + offset)) := by
  induction trees generalizing place with
  | nil => cases h
  | cons first rest ih =>
    rcases List.mem_cons.1 h with rfl | hrest
    · exact ⟨0, standsAt_first ..⟩
    · obtain ⟨offset, hstands⟩ := @ih (place + first.size) hrest
      rw [Nat.add_assoc] at hstands
      exact ⟨first.size + offset, (standsAt_rest ..).trans hstands⟩

/-- A tree is another one or one of the trees below it. -/
def Contains : (tree inner : Rose) → Prop :=
  Relation.ReflTransGen fun upper lower => lower ∈ upper.children

/-- What the trees right below the root take over from a tree, all trees in it do. -/
theorem Contains.induction {tree inner : Rose} (h : tree.Contains inner) {P : Rose → Prop}
    (hroot : P tree) (hstep : ∀ upper, P upper → ∀ lower ∈ upper.children, P lower) : P inner := by
  induction h with
  | refl => exact hroot
  | tail _ hmem ih => exact hstep _ ih _ hmem

mutual

/-- Every stored node is the root of a tree whose stored form stands at the node's place. -/
theorem exists_of_mem_flatten {parent : Option Nat} {place : Nat} {found : Node} :
    (tree : Rose) → found ∈ tree.flatten parent place →
      ∃ inner, tree.Contains inner ∧ ∃ offset, found.id = place + offset ∧
        found = inner.head found.parent found.id ∧
        StandsAt (tree.flatten parent place) offset (inner.flatten found.parent found.id)
  | node content children, h => by
    rw [flatten] at h
    rcases List.mem_cons.1 h with rfl | hbelow
    · exact ⟨node content children, .refl, 0, rfl, rfl, .refl _⟩
    · obtain ⟨tree, hmem, inner, hinner, offset, hid, hhead, hstands⟩ :=
        exists_of_mem_flattens children hbelow
      exact ⟨inner, .head hmem hinner, 1 + offset, by omega, hhead,
        (standsAt_children ..).trans hstands⟩

theorem exists_of_mem_flattens {parent : Option Nat} {place : Nat} {found : Node} :
    (trees : List Rose) → found ∈ flattens parent place trees →
      ∃ tree ∈ trees, ∃ inner, tree.Contains inner ∧ ∃ offset, found.id = place + offset ∧
        found = inner.head found.parent found.id ∧
        StandsAt (flattens parent place trees) offset (inner.flatten found.parent found.id)
  | tree :: rest, h => by
    rw [flattens] at h
    rcases List.mem_append.1 h with hfirst | hrest
    · obtain ⟨inner, hinner, offset, hid, hhead, hstands⟩ := exists_of_mem_flatten tree hfirst
      exact ⟨tree, List.mem_cons_self, inner, hinner, 0 + offset, by omega, hhead,
        (standsAt_first ..).trans hstands⟩
    · obtain ⟨other, hmem, inner, hinner, offset, hid, hhead, hstands⟩ :=
        exists_of_mem_flattens rest hrest
      exact ⟨other, List.mem_cons_of_mem _ hmem, inner, hinner, tree.size + offset, by omega, hhead,
        (standsAt_rest ..).trans hstands⟩

end

mutual

/-- A stored node other than the root is listed by the node that it names as its parent. -/
theorem parent_of_mem_flatten {parent : Option Nat} {place : Nat} {found : Node} :
    (tree : Rose) → found ∈ tree.flatten parent place →
      (found.id = place ∧ found.parent = parent) ∨
        ∃ upper ∈ tree.flatten parent place,
          found.parent = some upper.id ∧ found.id ∈ upper.children
  | node content children, h => by
    rw [flatten] at h ⊢
    rcases List.mem_cons.1 h with rfl | hbelow
    · exact .inl ⟨rfl, rfl⟩
    · right
      rcases parent_of_mem_flattens children hbelow with ⟨hparent, hplace⟩ | ⟨upper, hupper, hlinks⟩
      · exact ⟨_, List.mem_cons_self, hparent, hplace⟩
      · exact ⟨upper, List.mem_cons_of_mem _ hupper, hlinks⟩

theorem parent_of_mem_flattens {parent : Option Nat} {place : Nat} {found : Node} :
    (trees : List Rose) → found ∈ flattens parent place trees →
      (found.parent = parent ∧ found.id ∈ places place trees) ∨
        ∃ upper ∈ flattens parent place trees,
          found.parent = some upper.id ∧ found.id ∈ upper.children
  | tree :: rest, h => by
    rw [flattens] at h ⊢
    rw [places]
    rcases List.mem_append.1 h with hfirst | hrest
    · rcases parent_of_mem_flatten tree hfirst with ⟨hplace, hparent⟩ | ⟨upper, hupper, hlinks⟩
      · exact .inl ⟨hparent, hplace ▸ List.mem_cons_self⟩
      · exact .inr ⟨upper, List.mem_append_left _ hupper, hlinks⟩
    · rcases parent_of_mem_flattens rest hrest with ⟨hparent, hplace⟩ | ⟨upper, hupper, hlinks⟩
      · exact .inl ⟨hparent, List.mem_cons_of_mem _ hplace⟩
      · exact .inr ⟨upper, List.mem_append_right _ hupper, hlinks⟩

end

/-- Children are listed by places inside the tree and behind their parent. -/
theorem child_bounds {parent : Option Nat} {place child : Nat} {tree : Rose} {found : Node}
    (h : found ∈ tree.flatten parent place) (hchild : child ∈ found.children) :
    found.id < child ∧ child < place + tree.size := by
  obtain ⟨inner, -, offset, hid, hhead, hstands⟩ := exists_of_mem_flatten tree h
  rw [hhead] at hchild
  have hbounds := mem_places_bounds hchild
  have hsize := inner.sizes_children
  have hle := hstands.length_le
  rw [length_flatten, length_flatten] at hle
  omega

end Rose

section Stored

variable {rose : Rose} {place : Nat} {node : Node}

/-- A look-up in a stored tree is one in the stored form. -/
theorem get?_ofRose (rose : Rose) (place : Nat) :
    (ofRose rose).get? place = (rose.flatten none 0)[place]? := by
  simp only [get?, ofRose, ofNodes, List.getElem?_toArray]

/-- A node that is found is one of the stored nodes. -/
theorem mem_of_get?_ofRose (h : (ofRose rose).get? place = some node) :
    node ∈ rose.flatten none 0 :=
  List.mem_of_getElem? (get?_ofRose rose place ▸ h)

/-- A stored node is found at the place that it names. -/
theorem get?_ofRose_of_mem (h : node ∈ rose.flatten none 0) :
    (ofRose rose).get? node.id = some node := by
  obtain ⟨offset, hoffset⟩ := List.getElem?_of_mem h
  rw [get?_ofRose, Rose.id_of_getElem? hoffset, Nat.zero_add, hoffset]

/-- Behind every place there is a subtree, stored from that place on. -/
theorem exists_subtree (h : (ofRose rose).get? place = some node) :
    ∃ inner, rose.Contains inner ∧ node = inner.head node.parent place ∧
      StandsAt (rose.flatten none 0) place (inner.flatten node.parent place) := by
  have hplace : node.id = place := (ofRose rose).placed place node h
  obtain ⟨inner, hinner, offset, hid, hhead, hstands⟩ :=
    Rose.exists_of_mem_flatten rose (mem_of_get?_ofRose h)
  rw [Nat.zero_add] at hid
  rw [← hid, hplace] at hstands
  rw [hplace] at hhead
  exact ⟨inner, hinner, hhead, hstands⟩

/-- A subtree that is stored at a place is found there. -/
theorem get?_of_standsAt {parent : Option Nat} {inner : Rose}
    (h : StandsAt (rose.flatten none 0) place (inner.flatten parent place)) :
    (ofRose rose).get? place = some (inner.head parent place) := by
  have hroot : (inner.flatten parent place)[0]? = some (inner.head parent place) := by
    rw [Rose.flatten_eq]
    rfl
  rw [get?_ofRose]
  exact h.getElem? hroot

/-- Every tree in a rose tree is stored at some place. -/
theorem exists_standsAt_of_contains {inner : Rose} (h : rose.Contains inner) :
    ∃ parent place, StandsAt (rose.flatten none 0) place (inner.flatten parent place) := by
  induction h with
  | refl => exact ⟨none, 0, .refl _⟩
  | tail _ hlower ih =>
    obtain ⟨parent, place, hstands⟩ := ih
    obtain ⟨offset, hbelow⟩ := Rose.exists_standsAt_of_mem (some place) hlower
    exact ⟨_, _, (hstands.trans (Rose.standsAt_children ..)).trans hbelow⟩

/-- The slice that a node names as its subtree is the stored form of its subtree. -/
theorem subtree_of_standsAt {parent : Option Nat} {inner : Rose}
    (h : StandsAt (rose.flatten none 0) place (inner.flatten parent place)) :
    (ofRose rose).subtree (inner.head parent place) = inner.flatten parent place := by
  have hslice := h.take_drop
  rw [Rose.length_flatten] at hslice
  change ((rose.flatten none 0).toArray.extract place (place + inner.size)).toList = _
  rw [Array.toList_extract, List.extract_eq_take_drop, Nat.add_sub_cancel_left, hslice]

/-- The children of a node, looked up one after the other, have the trees below the node as
their subtrees. -/
theorem flatMap_subtree_places {parent : Option Nat} (trees : List Rose)
    (h : StandsAt (rose.flatten none 0) place (Rose.flattens parent place trees)) :
    ((Rose.places place trees).filterMap (ofRose rose).get?).flatMap (ofRose rose).subtree =
      Rose.flattens parent place trees := by
  induction trees generalizing place with
  | nil => rfl
  | cons tree rest ih =>
    have hfirst : StandsAt (rose.flatten none 0) place (tree.flatten parent place) :=
      h.trans (Rose.standsAt_first ..)
    rw [Rose.places, List.filterMap_cons_some (get?_of_standsAt hfirst), List.flatMap_cons,
      subtree_of_standsAt hfirst, ih (h.trans (Rose.standsAt_rest ..)), Rose.flattens]

/-- What is stored in a subtree can be reached from its root through children. -/
theorem reaches_of_mem_flatten {parent : Option Nat} {inner : Rose}
    (hstands : StandsAt (rose.flatten none 0) place (inner.flatten parent place))
    (h : node ∈ inner.flatten parent place) :
    Relation.ReflTransGen (ofRose rose).HasChild place node.id := by
  -- parents come first, so the place itself is what the induction goes down on
  induction hplace : node.id using Nat.strongRecOn generalizing node with
  | ind _ ih =>
    rcases Rose.parent_of_mem_flatten inner h with ⟨hroot, -⟩ | ⟨upper, hupper, hparent, hchild⟩
    · rw [← hplace, hroot]
    · have hlt := (Rose.child_bounds hupper hchild).1
      obtain ⟨offset, hoffset⟩ := List.getElem?_of_mem hupper
      have hfound := hstands.getElem? hoffset
      rw [← Rose.id_of_getElem? hoffset, ← get?_ofRose] at hfound
      rw [← hplace]
      exact (ih upper.id (hplace ▸ hlt) hupper rfl).tail ⟨upper, hfound, hchild⟩

/-- What can be reached through children from the root of a subtree is stored in it. -/
theorem mem_range_of_reaches {parent : Option Nat} {inner : Rose} {other : Nat}
    (hstands : StandsAt (rose.flatten none 0) place (inner.flatten parent place))
    (h : Relation.ReflTransGen (ofRose rose).HasChild place other) :
    place ≤ other ∧ other < place + inner.size := by
  induction h with
  | refl =>
    have hpos := inner.size_pos
    omega
  | @tail upper child _ hstep ih =>
    obtain ⟨found, hfound, hchild⟩ := hstep
    obtain ⟨offset, rfl⟩ := Nat.exists_eq_add_of_le ih.1
    have hoffset : offset < (inner.flatten parent place).length := by
      rw [Rose.length_flatten]
      omega
    -- the node found at an inner place is the one that the subtree holds there
    have hinner := hstands.getElem? (List.getElem?_eq_getElem hoffset)
    rw [← get?_ofRose, hfound, Option.some.injEq] at hinner
    have hmem : found ∈ inner.flatten parent place := hinner ▸ List.getElem_mem hoffset
    have hbounds := Rose.child_bounds hmem hchild
    rw [(ofRose rose).placed _ _ hfound] at hbounds
    omega

/-- Every tree that is stored from a rose tree has consistent links. -/
theorem linked_ofRose (rose : Rose) : (ofRose rose).Linked where
  root := ⟨rose.head none 0, get?_of_standsAt (.refl _), rfl⟩
  parent_lt {place node} h hpos := by
    have hplace : node.id = place := (ofRose rose).placed place node h
    rcases Rose.parent_of_mem_flatten rose (mem_of_get?_ofRose h) with
      ⟨hroot, -⟩ | ⟨upper, hupper, hparent, hchild⟩
    · omega
    · exact ⟨upper.id, hparent, hplace ▸ (Rose.child_bounds hupper hchild).1⟩
  mem_children_iff {place child node} h := by
    obtain ⟨inner, -, hhead, hstands⟩ := exists_subtree h
    constructor
    · intro hchild
      rw [hhead] at hchild
      obtain ⟨tree, -, offset, rfl, htree⟩ := Rose.exists_of_mem_places (some place) hchild
      have hbelow := (hstands.trans (Rose.standsAt_children ..)).trans htree
      exact ⟨_, get?_of_standsAt hbelow, rfl⟩
    · rintro ⟨found, hfound, hparent⟩
      rcases Rose.parent_of_mem_flatten rose (mem_of_get?_ofRose hfound) with
        ⟨-, hroot⟩ | ⟨upper, hupper, hupperParent, hlisted⟩
      · rw [hroot] at hparent
        cases hparent
      · have hupperPlace : upper.id = place := Option.some.inj (hupperParent.symm.trans hparent)
        have hsame := get?_ofRose_of_mem hupper
        rw [hupperPlace, h, Option.some.injEq] at hsame
        rw [(ofRose rose).placed child found hfound] at hlisted
        rw [hsame]
        exact hlisted
  children_ordered {place node} h := by
    obtain ⟨inner, -, hhead, -⟩ := exists_subtree h
    rw [hhead]
    exact Rose.places_ordered ..
  lt_subtreeEnd {place node} h := by
    obtain ⟨inner, -, hhead, -⟩ := exists_subtree h
    rw [hhead]
    exact Nat.lt_add_of_pos_right inner.size_pos
  subtreeEnd_le {place node} h := by
    obtain ⟨inner, -, hhead, hstands⟩ := exists_subtree h
    have hle := hstands.length_le
    rw [Rose.length_flatten] at hle
    rw [hhead]
    exact hle
  subtree_ids {place node} h := by
    obtain ⟨inner, -, hhead, hstands⟩ := exists_subtree h
    rw [hhead, subtree_of_standsAt hstands, Rose.map_id_flatten]
    change _ = List.range' place (place + inner.size - place)
    rw [Nat.add_sub_cancel_left]
  mem_subtree_iff {place other node} h := by
    obtain ⟨inner, -, hhead, hstands⟩ := exists_subtree h
    rw [hhead, subtree_of_standsAt hstands]
    constructor
    · intro hmem
      obtain ⟨found, hfound, rfl⟩ := List.mem_map.1 hmem
      exact reaches_of_mem_flatten hstands hfound
    · intro hreach
      rw [Rose.map_id_flatten, List.mem_range'_1]
      exact mem_range_of_reaches hstands hreach
  subtree_eq {place node} h := by
    obtain ⟨inner, -, hhead, hstands⟩ := exists_subtree h
    have hbelow := flatMap_subtree_places inner.children (hstands.trans (Rose.standsAt_children ..))
    rw [hhead, subtree_of_standsAt hstands, Rose.flatten_eq, ← hbelow]
    rfl

end Stored

end LineCoach.Tree
