import LineCoach.Proofs.Tree.Building
import LineCoach.Proofs.Tree.Children

/-!
# The next node in source order

In a stored tree the next node is the one at the next place. Followed through links alone it is
found in another way: go to the first child, or else to the next sibling, or else to the next
sibling of the nearest node above that has one. `Behind` is the second half of that search, which
leaves a node with all that is below it. It ends where the subtree of the node ends, and that
carries the induction up the chain of parents.
-/

namespace LineCoach.Tree

/-- The node that a node names as its parent. -/
def parentOf? (tree : Tree) (node : Node) : Option Node :=
  node.parent.bind tree.get?

/-- The second node is the parent of the first. -/
def HasParent (tree : Tree) (lower upper : Node) : Prop :=
  tree.parentOf? lower = some upper

/-- The node that a node lists first among its children. -/
def firstChild? (tree : Tree) (node : Node) : Option Node :=
  node.children.head?.bind tree.get?

/-- The node that is listed right behind a node among the children of its parent. -/
def nextSibling? (tree : Tree) (node : Node) : Option Node :=
  (tree.parentOf? node).bind fun upper =>
    (upper.children.dropWhile (· ≠ node.id)).tail.head?.bind tree.get?

/-- Leaving a node and all that is below it through links, one comes to `next`: the next sibling
of the node, or of the nearest node above it that has one. Where there is none, it is nothing. -/
inductive Behind (tree : Tree) : Node → Option Node → Prop
  | sibling {node next : Node} (follows : tree.nextSibling? node = some next) :
      Behind tree node (some next)
  | above {node upper : Node} {next : Option Node} (last : tree.nextSibling? node = none)
      (parent : tree.parentOf? node = some upper) (behind : Behind tree upper next) :
      Behind tree node next
  | root {node : Node} (last : tree.nextSibling? node = none)
      (parent : tree.parentOf? node = none) : Behind tree node none

/-- Going on from a node through links, one comes to `next`: the first child of the node, or else
what is behind it. -/
inductive Successor (tree : Tree) (node : Node) : Option Node → Prop
  | child {next : Node} (first : tree.firstChild? node = some next) :
      Successor tree node (some next)
  | behind {next : Option Node} (leaf : tree.firstChild? node = none)
      (behind : tree.Behind node next) : Successor tree node next

namespace Behind

variable {tree : Tree} {node : Node} {next other : Option Node}

/-- There is one way to leave a node. -/
theorem unique (h : tree.Behind node next) (h' : tree.Behind node other) : next = other := by
  induction h with
  | sibling follows =>
    cases h' with
    | sibling follows' => rw [← follows, ← follows']
    | above last => rw [follows] at last; cases last
    | root last => rw [follows] at last; cases last
  | above last parent behind ih =>
    cases h' with
    | sibling follows' => rw [last] at follows'; cases follows'
    | above last' parent' behind' =>
      rw [parent] at parent'
      cases parent'
      exact ih behind'
    | root last' parent' => rw [parent] at parent'; cases parent'
  | root last parent =>
    cases h' with
    | sibling follows' => rw [last] at follows'; cases follows'
    | above last' parent' => rw [parent] at parent'; cases parent'
    | root => rfl

/-- Nothing is behind a node if neither the node nor any node above it has a next sibling. -/
theorem eq_none_iff (h : tree.Behind node next) :
    next = none ↔
      ∀ above, Relation.ReflTransGen tree.HasParent node above →
        tree.nextSibling? above = none := by
  induction h with
  | @sibling node next follows =>
    refine iff_of_false (Option.some_ne_none next) ?_
    intro hnone
    rw [hnone node .refl] at follows
    cases follows
  | above last parent behind ih =>
    rw [ih]
    constructor
    · intro habove above hreach
      rcases Relation.ReflTransGen.cases_head hreach with rfl | ⟨upper', parent', hreach'⟩
      · exact last
      · cases parent.symm.trans parent'
        exact habove above hreach'
    · intro hnode above hreach
      exact hnode above (.head parent hreach)
  | root last parent =>
    refine iff_of_true rfl ?_
    intro above hreach
    rcases Relation.ReflTransGen.cases_head hreach with rfl | ⟨upper', parent', -⟩
    · exact last
    · cases parent.symm.trans parent'

end Behind

namespace Successor

variable {tree : Tree} {node : Node} {next other : Option Node}

/-- There is one way to go on from a node. -/
theorem unique (h : tree.Successor node next) (h' : tree.Successor node other) : next = other := by
  cases h with
  | child first =>
    cases h' with
    | child first' => rw [← first, ← first']
    | behind leaf' => rw [first] at leaf'; cases leaf'
  | behind leaf behind =>
    cases h' with
    | child first' => rw [leaf] at first'; cases first'
    | behind leaf' behind' => exact behind.unique behind'

/-- There is nothing to go on to if the node has no child and nothing is behind it. -/
theorem eq_none_iff (h : tree.Successor node next) :
    next = none ↔ tree.firstChild? node = none ∧
      ∀ above, Relation.ReflTransGen tree.HasParent node above →
        tree.nextSibling? above = none := by
  cases h with
  | child first => simp [first]
  | behind leaf behind => rw [behind.eq_none_iff, and_iff_right leaf]

end Successor

namespace Rose

/-- A tree that is stored among others has trees in front of it, whose sizes tell its place. -/
theorem exists_split_of_mem_places {place child : Nat} {trees : List Rose}
    (h : child ∈ places place trees) :
    ∃ before tree after, trees = before ++ tree :: after ∧ child = place + sizes before := by
  induction trees generalizing place with
  | nil => cases h
  | cons first rest ih =>
    rcases List.mem_cons.1 h with rfl | hrest
    · exact ⟨[], first, rest, rfl, rfl⟩
    · obtain ⟨before, tree, after, rfl, hchild⟩ := ih hrest
      refine ⟨first :: before, tree, after, rfl, ?_⟩
      rw [hchild, sizes, Nat.add_assoc]

/-- Behind the place of a tree stand the places of the trees that come after it. -/
theorem dropWhile_places (place : Nat) (before : List Rose) (tree : Rose) (after : List Rose) :
    ((places place (before ++ tree :: after)).dropWhile (· ≠ place + sizes before)).tail =
      places (place + sizes before + tree.size) after := by
  have hbefore : ∀ other ∈ places place before, decide (other ≠ place + sizes before) = true := by
    intro other hother
    have hbounds := mem_places_bounds hother
    simp only [decide_eq_true_eq]
    omega
  rw [places_append, List.dropWhile_append_of_pos hbefore, places,
    List.dropWhile_cons_of_neg (by simp), List.tail_cons]

/-- Trees behind others are stored behind them. -/
theorem standsAt_append (parent : Option Nat) (place : Nat) (before after : List Rose) :
    StandsAt (flattens parent place (before ++ after)) (sizes before)
      (flattens parent (place + sizes before) after) :=
  ⟨flattens parent place before, [], by rw [flattens_append, List.append_nil], length_flattens ..⟩

end Rose

section Stored

variable {rose inner tree : Rose} {before after : List Rose} {parent : Option Nat}
  {place above : Nat} {node : Node}

/-- The trees right below a stored node are stored from the first of them on, and also from any
later one on. -/
theorem standsAt_siblings
    (hstands : StandsAt (rose.flatten none 0) above (inner.flatten parent above))
    (hsplit : inner.children = before ++ after) :
    StandsAt (rose.flatten none 0) (above + 1 + Rose.sizes before)
      (Rose.flattens (some above) (above + 1 + Rose.sizes before) after) := by
  have hbelow := hstands.trans (Rose.standsAt_children ..)
  rw [hsplit] at hbelow
  exact hbelow.trans (Rose.standsAt_append ..)

/-- The next sibling of a stored node is the root of the next tree, if there is one. -/
theorem nextSibling?_of_standsAt
    (hstands : StandsAt (rose.flatten none 0) above (inner.flatten parent above))
    (hsplit : inner.children = before ++ tree :: after) :
    (ofRose rose).nextSibling? (tree.head (some above) (above + 1 + Rose.sizes before)) =
      (Rose.places (above + 1 + Rose.sizes before + tree.size) after).head?.bind
        (ofRose rose).get? := by
  have hparent : (ofRose rose).parentOf? (tree.head (some above) (above + 1 + Rose.sizes before)) =
      some (inner.head parent above) := get?_of_standsAt hstands
  rw [nextSibling?, hparent, Option.bind_some]
  change ((Rose.places (above + 1) inner.children).dropWhile
    (· ≠ above + 1 + Rose.sizes before)).tail.head?.bind _ = _
  rw [hsplit, Rose.dropWhile_places]

/-- A node below the root is the root of one of the trees right below another stored node. -/
theorem exists_siblings (h : (ofRose rose).get? place = some node) (hpos : 0 < place) :
    ∃ (above : Nat) (inner : Rose) (parent : Option Nat) (before : List Rose) (tree : Rose)
      (after : List Rose), above < place ∧
      StandsAt (rose.flatten none 0) above (inner.flatten parent above) ∧
      inner.children = before ++ tree :: after ∧ place = above + 1 + Rose.sizes before ∧
      node = tree.head (some above) place := by
  obtain ⟨above, upper, hlt, -, hupper, hlisted⟩ := (linked_ofRose rose).exists_parent h hpos
  obtain ⟨inner, -, hhead, hstands⟩ := exists_subtree hupper
  rw [hhead] at hlisted
  obtain ⟨before, tree, after, hsplit, rfl⟩ := Rose.exists_split_of_mem_places hlisted
  have hhere := (standsAt_siblings hstands hsplit).trans (Rose.standsAt_first ..)
  exact ⟨above, inner, _, before, tree, after, hlt, hstands, hsplit, rfl,
    Option.some.inj (h.symm.trans (get?_of_standsAt hhere))⟩

/-- Nothing is stored where the whole tree ends. -/
theorem get?_subtreeEnd_root (rose : Rose) :
    (ofRose rose).get? (rose.head none 0).subtreeEnd = none := by
  rw [get?_ofRose, List.getElem?_eq_none_iff, Rose.length_flatten]
  exact Nat.le_of_eq (Nat.zero_add _).symm

/-- The last child ends where its parent ends. -/
theorem subtreeEnd_last (parent : Option Nat) (hsplit : inner.children = before ++ [tree]) :
    (tree.head (some above) (above + 1 + Rose.sizes before)).subtreeEnd =
      (inner.head parent above).subtreeEnd := by
  have hsize := inner.sizes_children
  rw [hsplit, Rose.sizes_append, Rose.sizes, Rose.sizes] at hsize
  change above + 1 + Rose.sizes before + tree.size = above + inner.size
  omega

/-- Leaving a stored node through links, one comes to where its subtree ends. -/
theorem behind_subtreeEnd (h : (ofRose rose).get? place = some node) :
    (ofRose rose).Behind node ((ofRose rose).get? node.subtreeEnd) := by
  -- a parent stands before its children, so the induction goes down on the place
  induction place using Nat.strongRecOn generalizing node with
  | ind place ih =>
    rcases Nat.eq_zero_or_pos place with rfl | hpos
    · obtain rfl : node = rose.head none 0 :=
        Option.some.inj (h.symm.trans (get?_of_standsAt (.refl _)))
      rw [get?_subtreeEnd_root]
      exact .root rfl rfl
    · obtain ⟨above, inner, parent, before, tree, after, hlt, hstands, hsplit, rfl, rfl⟩ :=
        exists_siblings h hpos
      have hsibling := nextSibling?_of_standsAt hstands hsplit
      cases after with
      | nil =>
        have hupper := get?_of_standsAt hstands
        rw [subtreeEnd_last parent hsplit]
        exact .above hsibling hupper (ih above hlt hupper)
      | cons next rest =>
        have hthere : StandsAt (rose.flatten none 0) (above + 1 + Rose.sizes before + tree.size)
            (next.flatten (some above) (above + 1 + Rose.sizes before + tree.size)) :=
          ((standsAt_siblings hstands hsplit).trans (Rose.standsAt_rest ..)).trans
            (Rose.standsAt_first ..)
        have hnext := get?_of_standsAt hthere
        have hend : (tree.head (some above) (above + 1 + Rose.sizes before)).subtreeEnd =
            above + 1 + Rose.sizes before + tree.size := rfl
        rw [Rose.places, List.head?_cons, Option.bind_some, hnext] at hsibling
        rw [hend, hnext]
        exact .sibling hsibling

/-- The node at the next place is the one to which the links lead. -/
theorem successor_next? (h : (ofRose rose).get? place = some node) :
    (ofRose rose).Successor node ((ofRose rose).next? place) := by
  obtain ⟨inner, -, hhead, hstands⟩ := exists_subtree h
  have hlisted : node.children = Rose.places (place + 1) inner.children := by rw [hhead]; rfl
  rw [next?]
  cases hchildren : inner.children with
  | nil =>
    have hleaf : (ofRose rose).firstChild? node = none := by
      rw [firstChild?, hlisted, hchildren]
      rfl
    have hend : node.subtreeEnd = place + 1 := by
      have hsize := inner.sizes_children
      rw [hchildren, Rose.sizes] at hsize
      rw [hhead]
      change place + inner.size = place + 1
      omega
    rw [← hend]
    exact .behind hleaf (behind_subtreeEnd h)
  | cons first rest =>
    have hbelow := hstands.trans (Rose.standsAt_children ..)
    rw [hchildren] at hbelow
    have hstart : StandsAt (rose.flatten none 0) (place + 1)
        (first.flatten (some place) (place + 1)) := hbelow.trans (Rose.standsAt_first ..)
    have hfirst := get?_of_standsAt hstart
    have hchild : (ofRose rose).firstChild? node = (ofRose rose).get? (place + 1) := by
      rw [firstChild?, hlisted, hchildren]
      rfl
    rw [hfirst] at hchild ⊢
    exact .child hchild

end Stored

/-- Whatever operations a tree is built by, the node at the next place is the one to which its
links lead: the first child, or else the next sibling, or else the next sibling of the nearest node
above that has one. There is no next node exactly when none of these exists. -/
theorem Script.next_iff_successor (script : Script) {id : Nat} (hid : id < script.build.size) :
    ∃ node, script.build.get? id = some node ∧
      (∀ next, script.build.next? id = next ↔ script.build.Successor node next) ∧
      (script.build.next? id = none ↔ script.build.firstChild? node = none ∧
        ∀ above, Relation.ReflTransGen script.build.HasParent node above →
          script.build.nextSibling? above = none) := by
  rw [script.build_eq_ofRose] at hid ⊢
  have hnode : (ofRose script.rose).get? id = some (ofRose script.rose).nodes[id] :=
    Array.getElem?_eq_getElem hid
  have hnext := successor_next? hnode
  refine ⟨_, hnode, ?_, hnext.eq_none_iff⟩
  intro next
  constructor
  · rintro rfl
    exact hnext
  · exact hnext.unique

namespace Sample

/-- A call with a sum inside it, and a name behind the call: `f(a + b)` and `c`. -/
def call : Script where
  label := "module"
  span := ⟨⟨1, 0⟩, ⟨3, 0⟩⟩
  steps :=
    [.start .other "call" ⟨⟨1, 0⟩, ⟨1, 8⟩⟩,
      .start .binaryOperator "binary_operator" ⟨⟨1, 2⟩, ⟨1, 7⟩⟩,
      .leaf .other "identifier" ⟨⟨1, 2⟩, ⟨1, 3⟩⟩,
      .leaf .other "identifier" ⟨⟨1, 6⟩, ⟨1, 7⟩⟩,
      .finish, .finish,
      .leaf .other "identifier" ⟨⟨2, 0⟩, ⟨2, 1⟩⟩]

end Sample

/-- From the last name of the sum the links lead up through two nodes to the name behind the
call. -/
theorem Script.next_iff_successor_sample :
    4 < Sample.call.build.size ∧
      ∃ node, Sample.call.build.get? 4 = some node ∧
        Sample.call.build.Successor node (Sample.call.build.get? 5) := by
  have hid : 4 < Sample.call.build.size := by decide
  obtain ⟨node, hnode, hnext, -⟩ := Sample.call.next_iff_successor hid
  exact ⟨hid, node, hnode, (hnext _).1 rfl⟩

end LineCoach.Tree
