import Mathlib.Order.Basic
import LineCoach.Proofs.Tree.Links

/-!
# Nested spans

In a rose tree with nested spans the trees right below a node lie inside the node, one behind the
other. That is said by recursion, with the position that is reached so far carried along the
siblings. The stored form then has nested spans in its own terms, of places and links: `SpansNested`
collects what the line queries rely on, and `spansNested_ofRose` proves it.
-/

namespace LineCoach.Tree

instance : Preorder Position where
  le_refl _ := .inr ⟨rfl, Nat.le_refl _⟩
  le_trans first second third h h' := by
    rcases h with hline | ⟨hline, hcolumn⟩
    · rcases h' with hline' | ⟨hline', -⟩
      · exact .inl (Nat.lt_trans hline hline')
      · exact .inl (hline' ▸ hline)
    · rcases h' with hline' | ⟨hline', hcolumn'⟩
      · exact .inl (hline ▸ hline')
      · exact .inr ⟨hline.trans hline', Nat.le_trans hcolumn hcolumn'⟩

/-- A position that is not behind another is on no later line. -/
theorem Position.line_le {first second : Position} (h : first ≤ second) :
    first.line ≤ second.line := by
  rcases h with hlt | ⟨heq, -⟩
  · exact Nat.le_of_lt hlt
  · exact Nat.le_of_eq heq

/-- The spans of a tree are ordered and nested. -/
structure SpansNested (tree : Tree) : Prop where
  /-- A node does not stop before it starts. -/
  start_le_stop {place : Nat} {node : Node} : tree.get? place = some node →
    node.span.start ≤ node.span.stop
  /-- A node lies inside its parent. -/
  inside_parent {place above : Nat} {node : Node} : tree.get? place = some node →
    node.parent = some above →
    ∃ upper, tree.get? above = some upper ∧
      upper.span.start ≤ node.span.start ∧ node.span.stop ≤ upper.span.stop
  /-- Every child that a node lists is there, and none starts before those in front of it stop. -/
  children_apart {place : Nat} {node : Node} : tree.get? place = some node →
    node.children.map tree.get? = (tree.children node).map some ∧
      (tree.children node).Pairwise fun first second => first.span.stop ≤ second.span.start
  /-- Nodes start in the order in which they stand. -/
  starts_ordered : tree.nodes.toList.Pairwise fun first second =>
    first.span.start ≤ second.span.start

namespace Rose

/-- The span of the root. -/
def span (tree : Rose) : Span :=
  tree.content.span

mutual

/-- The trees right below a node lie inside it, one behind the other, and so on down the tree. -/
def Nested : Rose → Prop
  | node content children => NestedIn content.span.start content.span.stop children

/-- Trees with nested spans lie between two positions, one behind the other. -/
def NestedIn (start stop : Position) : List Rose → Prop
  | [] => start ≤ stop
  | tree :: rest => start ≤ tree.span.start ∧ Nested tree ∧ NestedIn tree.span.stop stop rest

end

/-- A tree is nested when those below its root lie inside the root. -/
theorem nested_iff (tree : Rose) :
    tree.Nested ↔ NestedIn tree.span.start tree.span.stop tree.children := by
  cases tree with
  | node content children => exact Iff.of_eq (by rw [Nested]; rfl)

mutual

/-- A tree with nested spans does not stop before it starts. -/
theorem Nested.le : {tree : Rose} → tree.Nested → tree.span.start ≤ tree.span.stop
  | node _ _, h => by
    rw [Nested] at h
    exact NestedIn.le h

theorem NestedIn.le {start stop : Position} :
    {trees : List Rose} → NestedIn start stop trees → start ≤ stop
  | [], h => by
    rw [NestedIn] at h
    exact h
  | tree :: rest, h => by
    rw [NestedIn] at h
    obtain ⟨hstart, hnested, hrest⟩ := h
    exact hstart.trans (hnested.le.trans hrest.le)

end

namespace NestedIn

variable {start middle stop : Position} {trees : List Rose}

/-- The position before the trees may be an earlier one. -/
theorem of_le (hle : start ≤ middle) (h : NestedIn middle stop trees) :
    NestedIn start stop trees := by
  cases trees with
  | nil =>
    rw [NestedIn] at h ⊢
    exact hle.trans h
  | cons tree rest =>
    rw [NestedIn] at h ⊢
    exact ⟨hle.trans h.1, h.2⟩

/-- Trees behind a position follow on trees that lie before it. -/
theorem append {more : List Rose} (h : NestedIn start middle trees)
    (hmore : NestedIn middle stop more) : NestedIn start stop (trees ++ more) := by
  induction trees generalizing start with
  | nil =>
    rw [NestedIn] at h
    exact hmore.of_le h
  | cons tree rest ih =>
    rw [NestedIn] at h
    rw [List.cons_append, NestedIn]
    exact ⟨h.1, h.2.1, ih h.2.2⟩

/-- Each of the trees lies between the two positions. -/
theorem within (h : NestedIn start stop trees) {tree : Rose} (hmem : tree ∈ trees) :
    start ≤ tree.span.start ∧ tree.Nested ∧ tree.span.stop ≤ stop := by
  induction trees generalizing start with
  | nil => cases hmem
  | cons first rest ih =>
    rw [NestedIn] at h
    obtain ⟨hstart, hnested, hrest⟩ := h
    rcases List.mem_cons.1 hmem with rfl | hmem
    · exact ⟨hstart, hnested, hrest.le⟩
    · obtain ⟨hafter, hbelow⟩ := ih hrest hmem
      exact ⟨hstart.trans (hnested.le.trans hafter), hbelow⟩

/-- None of the trees starts before those in front of it stop. -/
theorem pairwise (h : NestedIn start stop trees) :
    trees.Pairwise fun first second => first.span.stop ≤ second.span.start := by
  induction trees generalizing start with
  | nil => exact .nil
  | cons tree rest ih =>
    rw [NestedIn] at h
    exact .cons (fun _ hmem => (h.2.2.within hmem).1) (ih h.2.2)

end NestedIn

/-- The trees inside one with nested spans have nested spans. -/
theorem Nested.of_contains {tree inner : Rose} (h : tree.Nested) (hinner : tree.Contains inner) :
    inner.Nested :=
  hinner.induction h fun upper hupper _ hmem => (((nested_iff upper).1 hupper).within hmem).2.1

mutual

/-- All nodes of a tree start between its start and its stop. -/
theorem Nested.start_between {parent : Option Nat} {place : Nat} {found : Node} :
    {tree : Rose} → tree.Nested → found ∈ tree.flatten parent place →
      tree.span.start ≤ found.span.start ∧ found.span.start ≤ tree.span.stop
  | node content children, h, hmem => by
    rw [flatten] at hmem
    rcases List.mem_cons.1 hmem with rfl | hbelow
    · exact ⟨le_rfl, h.le⟩
    · rw [Nested] at h
      exact NestedIn.start_between h hbelow

theorem NestedIn.start_between {parent : Option Nat} {place : Nat} {found : Node}
    {start stop : Position} :
    {trees : List Rose} → NestedIn start stop trees → found ∈ flattens parent place trees →
      start ≤ found.span.start ∧ found.span.start ≤ stop
  | tree :: rest, h, hmem => by
    rw [NestedIn] at h
    obtain ⟨hstart, hnested, hrest⟩ := h
    rw [flattens] at hmem
    rcases List.mem_append.1 hmem with hfirst | hbehind
    · have hbetween := hnested.start_between hfirst
      exact ⟨hstart.trans hbetween.1, hbetween.2.trans hrest.le⟩
    · have hbetween := hrest.start_between hbehind
      exact ⟨hstart.trans (hnested.le.trans hbetween.1), hbetween.2⟩

end

mutual

/-- The nodes of a tree start in pre-order. -/
theorem Nested.starts_ordered {parent : Option Nat} {place : Nat} :
    {tree : Rose} → tree.Nested → (tree.flatten parent place).Pairwise fun first second =>
      first.span.start ≤ second.span.start
  | node content children, h => by
    rw [Nested] at h
    rw [flatten]
    exact .cons (fun _ hmem => (h.start_between hmem).1) (NestedIn.starts_ordered h)

theorem NestedIn.starts_ordered {parent : Option Nat} {place : Nat} {start stop : Position} :
    {trees : List Rose} → NestedIn start stop trees →
      (flattens parent place trees).Pairwise fun first second =>
        first.span.start ≤ second.span.start
  | [], _ => .nil
  | tree :: rest, h => by
    rw [NestedIn] at h
    obtain ⟨-, hnested, hrest⟩ := h
    rw [flattens, List.pairwise_append]
    refine ⟨hnested.starts_ordered, hrest.starts_ordered, ?_⟩
    intro first hfirst second hsecond
    exact (hnested.start_between hfirst).2.trans (hrest.start_between hsecond).1

end

end Rose

section Stored

variable {rose : Rose} {place : Nat} {node : Node}

/-- The trees that are stored one behind the other are found at their places, with their spans. -/
theorem exists_children {parent : Option Nat} (trees : List Rose)
    (h : StandsAt (rose.flatten none 0) place (Rose.flattens parent place trees)) :
    ∃ found : List Node, (Rose.places place trees).map (ofRose rose).get? = found.map some ∧
      found.map Node.span = trees.map Rose.span := by
  induction trees generalizing place with
  | nil => exact ⟨[], rfl, rfl⟩
  | cons tree rest ih =>
    have hfirst : StandsAt (rose.flatten none 0) place (tree.flatten parent place) :=
      h.trans (Rose.standsAt_first ..)
    obtain ⟨found, hfound, hspans⟩ := ih (h.trans (Rose.standsAt_rest ..))
    refine ⟨tree.head parent place :: found, ?_, ?_⟩
    · rw [Rose.places, List.map_cons, get?_of_standsAt hfirst, hfound, List.map_cons]
    · rw [List.map_cons, hspans, List.map_cons]
      rfl

/-- The children of a stored node lie one behind the other when the spans are nested. -/
theorem children_apart_ofRose (hnested : rose.Nested) (h : (ofRose rose).get? place = some node) :
    node.children.map (ofRose rose).get? = ((ofRose rose).children node).map some ∧
      ((ofRose rose).children node).Pairwise fun first second =>
        first.span.stop ≤ second.span.start := by
  obtain ⟨inner, hinner, hhead, hstands⟩ := exists_subtree h
  obtain ⟨found, hfound, hspans⟩ :=
    exists_children inner.children (hstands.trans (Rose.standsAt_children ..))
  have hlisted : node.children.map (ofRose rose).get? = found.map some := by
    rw [hhead]
    exact hfound
  have hchildren : (ofRose rose).children node = found := by
    have hfilter : (ofRose rose).children node =
        (node.children.map (ofRose rose).get?).filterMap id := by rw [List.filterMap_map]; rfl
    rw [hfilter, hlisted, List.filterMap_map]
    exact List.filterMap_some
  have hapart := ((Rose.nested_iff inner).1 (hnested.of_contains hinner)).pairwise
  rw [hchildren]
  refine ⟨hlisted, ?_⟩
  have hspan : (found.map Node.span).Pairwise fun first second => first.stop ≤ second.start := by
    rw [hspans, List.pairwise_map]
    exact hapart
  exact List.pairwise_map.1 hspan

/-- A stored node lies inside its parent when the spans are nested. -/
theorem inside_parent_ofRose {above : Nat} (hnested : rose.Nested)
    (h : (ofRose rose).get? place = some node) (hparent : node.parent = some above) :
    ∃ upper, (ofRose rose).get? above = some upper ∧
      upper.span.start ≤ node.span.start ∧ node.span.stop ≤ upper.span.stop := by
  rcases Rose.parent_of_mem_flatten rose (mem_of_get?_ofRose h) with
    ⟨-, hroot⟩ | ⟨upper, hupper, hlink, hlisted⟩
  · rw [hroot] at hparent
    cases hparent
  · have habove : upper.id = above := Option.some.inj (hlink.symm.trans hparent)
    have hget : (ofRose rose).get? above = some upper := habove ▸ get?_ofRose_of_mem hupper
    obtain ⟨inner, hinner, hhead, hstands⟩ := exists_subtree hget
    -- the node is the root of one of the trees right below its parent
    rw [(ofRose rose).placed place node h, hhead] at hlisted
    obtain ⟨tree, hmem, offset, rfl, htree⟩ := Rose.exists_of_mem_places (some above) hlisted
    have hfound := get?_of_standsAt ((hstands.trans (Rose.standsAt_children ..)).trans htree)
    have hnode : node = tree.head (some above) (above + 1 + offset) :=
      Option.some.inj (h.symm.trans hfound)
    have hwithin := ((Rose.nested_iff inner).1 (hnested.of_contains hinner)).within hmem
    refine ⟨upper, hget, ?_⟩
    rw [hhead, hnode]
    exact ⟨hwithin.1, hwithin.2.2⟩

/-- A rose tree with nested spans is stored with nested spans. -/
theorem spansNested_ofRose (hnested : rose.Nested) : (ofRose rose).SpansNested where
  start_le_stop h := by
    obtain ⟨inner, hinner, hhead, -⟩ := exists_subtree h
    rw [hhead]
    exact (hnested.of_contains hinner).le
  inside_parent := inside_parent_ofRose hnested
  children_apart := children_apart_ofRose hnested
  starts_ordered := hnested.starts_ordered

end Stored

end LineCoach.Tree
