import LineCoach.Classifier.ExtractVariable
import LineCoach.Proofs.Tree.Building
import LineCoach.Proofs.Tree.Children

/-!
# Taking parentheses off

Taking parentheses off is a walk: each step goes from a node in parentheses to its first child that
is no comment. A child stands behind its parent, so the walk cannot take more steps than there are
nodes behind the one where it starts, and it comes to an end. There is only one way to go, so the
node where it ends is known by being at the end. `unwrap_comes_to_rest` says all of this for every
tree that can be built: nothing but the links keeps the walk from going on for ever.
-/

namespace LineCoach.ExtractVariable

/-- One step of the walk: from a node in parentheses to its first child that is no comment. -/
def Unwraps (tree : Tree) (outer inner : Tree.Node) : Prop :=
  outer.is .parenthesized = true ∧
    (tree.children outer).find? (fun child => !child.is .comment) = some inner

section Step

variable {tree : Tree} {outer inner : Tree.Node}

/-- A step goes to a child. -/
theorem Unwraps.mem_children (h : Unwraps tree outer inner) : inner ∈ tree.children outer :=
  List.mem_of_find?_eq_some h.2

/-- A step does not go to a comment. -/
theorem Unwraps.not_comment (h : Unwraps tree outer inner) : inner.is .comment = false := by
  simpa using List.find?_some h.2

/-- There is no step from a node without parentheses. -/
theorem not_unwraps (h : outer.is .parenthesized = false) : ¬ Unwraps tree outer inner := by
  rintro ⟨hparen, -⟩
  rw [h] at hparen
  cases hparen

/-- A walk has one end. -/
theorem eq_of_reaches {node last : Tree.Node}
    (h : Relation.ReflTransGen (Unwraps tree) node inner)
    (hend : ∀ next, ¬ Unwraps tree inner next)
    (h' : Relation.ReflTransGen (Unwraps tree) node last)
    (hend' : ∀ next, ¬ Unwraps tree last next) : inner = last := by
  induction h using Relation.ReflTransGen.head_induction_on with
  | refl =>
    rcases Relation.ReflTransGen.cases_head h' with heq | ⟨next, hstep, -⟩
    · exact heq
    · exact absurd hstep (hend next)
  | head hstep hrest ih =>
    rcases Relation.ReflTransGen.cases_head h' with rfl | ⟨next, hstep', hrest'⟩
    · exact absurd hstep (hend' _)
    · obtain rfl := Option.some.inj (hstep.2.symm.trans hstep'.2)
      exact ih hrest'

end Step

/-- However far the walk goes, it takes steps from the node where it starts. -/
theorem reaches_unwrapWithin (tree : Tree) (fuel : Nat) (node : Tree.Node) :
    Relation.ReflTransGen (Unwraps tree) node (unwrapWithin tree fuel node) := by
  induction fuel generalizing node with
  | zero => exact .refl
  | succ fuel ih =>
    rw [unwrapWithin]
    by_cases hparen : node.is .parenthesized = true
    · rw [if_pos hparen]
      cases hinner : (tree.children node).find? (fun child => !child.is .comment) with
      | none => exact .refl
      | some inner => exact .head ⟨hparen, hinner⟩ (ih inner)
    · rw [if_neg hparen]

/-- A walk that may take as many steps as there are nodes behind its start comes to an end. -/
theorem end_unwrapWithin {tree : Tree} (hlinked : tree.Linked) {fuel : Nat} {node : Tree.Node}
    (hnode : node ∈ tree.nodes.toList) (hfuel : tree.size ≤ fuel + node.id) (next : Tree.Node) :
    ¬ Unwraps tree (unwrapWithin tree fuel node) next := by
  induction fuel generalizing node with
  | zero =>
    have hlt := Tree.id_lt_size hnode
    omega
  | succ fuel ih =>
    rw [unwrapWithin]
    by_cases hparen : node.is .parenthesized = true
    · rw [if_pos hparen]
      cases hinner : (tree.children node).find? (fun child => !child.is .comment) with
      | none =>
        rintro ⟨-, hfound⟩
        rw [hinner] at hfound
        cases hfound
      | some inner =>
        have hchild : inner ∈ tree.children node := List.mem_of_find?_eq_some hinner
        have hlt := hlinked.id_lt_of_mem_children hnode hchild
        exact ih ((hlinked.mem_children hnode).1 hchild).1 (by omega)
    · rw [if_neg hparen]
      exact not_unwraps (eq_false_of_ne_true hparen)

/-- The innermost expression is reached by taking parentheses off. -/
theorem reaches_unwrap (tree : Tree) (node : Tree.Node) :
    Relation.ReflTransGen (Unwraps tree) node (unwrap tree node) :=
  reaches_unwrapWithin tree tree.size node

/-- From the innermost expression there is no further step. -/
theorem end_unwrap {tree : Tree} (hlinked : tree.Linked) {node : Tree.Node}
    (hnode : node ∈ tree.nodes.toList) (next : Tree.Node) :
    ¬ Unwraps tree (unwrap tree node) next :=
  end_unwrapWithin hlinked hnode (Nat.le_add_right _ _) next

/-- The innermost expression is the end of the walk. -/
theorem unwrap_eq_of_reaches {tree : Tree} (hlinked : tree.Linked) {node last : Tree.Node}
    (hnode : node ∈ tree.nodes.toList) (h : Relation.ReflTransGen (Unwraps tree) node last)
    (hend : ∀ next, ¬ Unwraps tree last next) : unwrap tree node = last :=
  eq_of_reaches (reaches_unwrap tree node) (end_unwrap hlinked hnode) h hend

/-- The innermost expression is a comment only if the node itself is one. -/
theorem unwrap_is_comment (tree : Tree) (node : Tree.Node) :
    (unwrap tree node).is .comment = node.is .comment := by
  rcases Relation.reflTransGen_iff_eq_or_transGen.1 (reaches_unwrap tree node) with heq | hwalk
  · rw [heq]
  · -- a step is taken, so the node is in parentheses and the end is no comment
    obtain ⟨first, hfirst, -⟩ := Relation.TransGen.head'_iff.1 hwalk
    obtain ⟨outer, -, hlast⟩ := Relation.TransGen.tail'_iff.1 hwalk
    have hkind : node.kind = .parenthesized := by simpa [Tree.Node.is] using hfirst.1
    rw [hlast.not_comment]
    simp [Tree.Node.is, hkind]

/-- From a node of a tree with consistent links no walk goes on for ever. -/
theorem acc_unwraps {tree : Tree} (hlinked : tree.Linked) {node : Tree.Node}
    (hnode : node ∈ tree.nodes.toList) :
    Acc (fun inner outer => Unwraps tree outer inner) node := by
  -- a step leaves fewer nodes behind the one that is reached
  induction hbehind : tree.size - node.id using Nat.strongRecOn generalizing node with
  | ind behind ih =>
    refine .intro node fun inner hstep => ?_
    have hchild := hstep.mem_children
    have hinner := ((hlinked.mem_children hnode).1 hchild).1
    have hlt := hlinked.id_lt_of_mem_children hnode hchild
    have hsize := Tree.id_lt_size hnode
    exact ih (tree.size - inner.id) (by omega) hinner rfl

/-- The walk stays in the subtree of the node where it starts. -/
theorem mem_subtree_of_reaches {tree : Tree} (hlinked : tree.Linked) {node last : Tree.Node}
    (hnode : node ∈ tree.nodes.toList) (h : Relation.ReflTransGen (Unwraps tree) node last) :
    last ∈ tree.subtree node := by
  induction h with
  | refl =>
    rw [hlinked.subtree_eq (tree.get?_id hnode)]
    exact List.mem_cons_self
  | tail _ hstep ih => exact hlinked.mem_subtree_of_mem_children hnode ih hstep.mem_children

/-- A bound on the steps that is not below the number of nodes is never reached. -/
theorem unwrapWithin_eq_unwrap {tree : Tree} (hlinked : tree.Linked) {node : Tree.Node}
    (hnode : node ∈ tree.nodes.toList) {fuel : Nat} (hfuel : tree.size ≤ fuel) :
    unwrapWithin tree fuel node = unwrap tree node := by
  have hend := end_unwrapWithin hlinked hnode (Nat.le_add_right_of_le hfuel)
  exact (unwrap_eq_of_reaches hlinked hnode (reaches_unwrapWithin tree fuel node) hend).symm

/-- The innermost expression is in parentheses only where these hold nothing but comments. -/
theorem comment_of_mem_children_unwrap {tree : Tree} (hlinked : tree.Linked)
    {node child : Tree.Node} (hnode : node ∈ tree.nodes.toList)
    (hparen : (unwrap tree node).is .parenthesized = true)
    (hchild : child ∈ tree.children (unwrap tree node)) : child.is .comment = true := by
  cases hfound : (tree.children (unwrap tree node)).find? (fun child => !child.is .comment) with
  | some next => exact absurd ⟨hparen, hfound⟩ (end_unwrap hlinked hnode next)
  | none => simpa using List.find?_eq_none.1 hfound child hchild

/-- Whatever operations a tree is built by, taking parentheses off a node of it comes to an end: the
ids that are followed lead further into the tree and never out of it, no walk goes on for ever, and
a bound on its steps makes no difference. The end is in the subtree of the node, reached from one
first child that is no comment to the next. It is in parentheses only if these hold nothing but
comments, and there is nothing more to take off it. -/
theorem unwrap_comes_to_rest (script : Tree.Script) {node : Tree.Node}
    (hnode : node ∈ script.build.nodes.toList) :
    (∀ outer ∈ script.build.nodes.toList, ∀ id ∈ outer.children,
      outer.id < id ∧ id < script.build.size) ∧
    Acc (fun inner outer => Unwraps script.build outer inner) node ∧
    (∀ fuel, script.build.size ≤ fuel →
      unwrapWithin script.build fuel node = unwrap script.build node) ∧
    unwrap script.build node ∈ script.build.subtree node ∧
    Relation.ReflTransGen (Unwraps script.build) node (unwrap script.build node) ∧
    ((unwrap script.build node).is .parenthesized = true →
      ∀ child ∈ script.build.children (unwrap script.build node), child.is .comment = true) ∧
    unwrap script.build (unwrap script.build node) = unwrap script.build node := by
  have hlinked : script.build.Linked := by
    rw [script.build_eq_ofRose]
    exact Tree.linked_ofRose script.rose
  have hreaches := reaches_unwrap script.build node
  have hinside := mem_subtree_of_reaches hlinked hnode hreaches
  have hmem := (script.build.subtree_sublist node).subset hinside
  refine ⟨?_, acc_unwraps hlinked hnode, ?_, hinside, hreaches, ?_, ?_⟩
  · intro outer houter id hid
    exact hlinked.child_bounds houter hid
  · intro fuel hfuel
    exact unwrapWithin_eq_unwrap hlinked hnode hfuel
  · intro hparen child hchild
    exact comment_of_mem_children_unwrap hlinked hnode hparen hchild
  · exact unwrap_eq_of_reaches hlinked hmem .refl (end_unwrap hlinked hnode)

namespace Sample

/-- `((a))`, with a comment before the name, and `(` `)` around a comment alone. -/
def wrapped : Tree.Script where
  label := "module"
  span := ⟨⟨1, 0⟩, ⟨4, 0⟩⟩
  steps :=
    [.start .parenthesized "parenthesized_expression" ⟨⟨1, 0⟩, ⟨2, 3⟩⟩,
      .start .parenthesized "parenthesized_expression" ⟨⟨1, 1⟩, ⟨2, 2⟩⟩,
      .leaf .comment "comment" ⟨⟨1, 3⟩, ⟨1, 6⟩⟩,
      .leaf .other "identifier" ⟨⟨2, 0⟩, ⟨2, 1⟩⟩,
      .finish, .finish, .finish,
      .start .parenthesized "parenthesized_expression" ⟨⟨3, 0⟩, ⟨3, 5⟩⟩,
      .leaf .comment "comment" ⟨⟨3, 1⟩, ⟨3, 4⟩⟩]

/-- The outer parentheses around the name. -/
def outer : Tree.Node :=
  ⟨1, .parenthesized, "parenthesized_expression", ⟨⟨1, 0⟩, ⟨2, 3⟩⟩, some 0, [2], 5, none⟩

/-- The name inside them. -/
def name : Tree.Node :=
  ⟨4, .other, "identifier", ⟨⟨2, 0⟩, ⟨2, 1⟩⟩, some 2, [], 5, none⟩

end Sample

/-- Two pairs of parentheses are taken off the name of the sample, past the comment before it. -/
theorem unwrap_comes_to_rest_sample :
    Sample.outer ∈ Sample.wrapped.build.nodes.toList ∧
      unwrap Sample.wrapped.build Sample.outer = Sample.name ∧
      Acc (fun inner outer => Unwraps Sample.wrapped.build outer inner) Sample.outer ∧
      Sample.name ∈ Sample.wrapped.build.subtree Sample.outer ∧
      unwrap Sample.wrapped.build Sample.name = Sample.name := by
  have hmem : Sample.outer ∈ Sample.wrapped.build.nodes.toList := by decide
  have hname : unwrap Sample.wrapped.build Sample.outer = Sample.name := by decide
  obtain ⟨-, hends, -, hinside, -, -, hagain⟩ := unwrap_comes_to_rest Sample.wrapped hmem
  rw [hname] at hinside hagain
  exact ⟨hmem, hname, hends, hinside, hagain⟩

end LineCoach.ExtractVariable
