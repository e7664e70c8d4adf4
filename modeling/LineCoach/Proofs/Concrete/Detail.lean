import LineCoach.Proofs.Concrete.Kept
import LineCoach.Proofs.Tree.Links

/-!
# Details of a lowered tree

Classifiers ask a node for the detail that its kind promises, and they fail where it is missing.
Every node of a lowered tree other than the root says what one concrete node says, so that it is
enough to look at concrete nodes one by one: an assignment always has a shape, and a function has a
signature if the grammar has given a name and parameters to it.
-/

namespace LineCoach

namespace Tree

/-- A node has the detail that its kind promises, and no other. -/
structure Node.Detailed (node : Node) : Prop where
  /-- Assignments have a shape. -/
  shape_iff : node.assignment?.isSome ↔ node.kind = .assignment
  /-- Functions have a signature. -/
  signature_iff : node.signature?.isSome ↔ node.kind = .functionDefinition

/-- A node whose kind promises nothing needs no detail. -/
theorem Node.detailed_of_none {node : Node} (hdetail : node.detail = none)
    (hassignment : node.kind ≠ .assignment) (hfunction : node.kind ≠ .functionDefinition) :
    node.Detailed := by
  constructor <;> simp [assignment?, signature?, hdetail, hassignment, hfunction]

/-- All nodes of a tree have the details that their kinds promise. The root is of no special kind
and has none. -/
structure Detailed (tree : Tree) : Prop where
  nodes : ∀ node ∈ tree.nodes.toList, node.Detailed
  root : ∃ node, tree.root? = some node ∧ node.kind = .other ∧
    node.assignment? = none ∧ node.signature? = none

end Tree

namespace Concrete

open LineCoach.Tree (Rose)

namespace Node

/-- A function has a name and a list of parameters. -/
def Signed (n : Node) : Prop :=
  n.kind = "function_definition" →
    (∃ child ∈ n.children, child.info.field = "name") ∧
      ∃ child ∈ n.children, child.info.field = "parameters"

instance (n : Node) : Decidable n.Signed :=
  inferInstanceAs (Decidable (_ → _))

/-- All functions of a concrete tree have a name and a list of parameters. -/
def AllSigned (n : Node) : Prop :=
  ∀ part ∈ n.parts, part.Signed

instance (n : Node) : Decidable n.AllSigned :=
  inferInstanceAs (Decidable (∀ part ∈ n.parts, part.Signed))

/-- A field that some child has is found. -/
theorem exists_childByField? {n : Node} {field : String}
    (h : ∃ child ∈ n.children, child.info.field = field) :
    ∃ child, n.childByField? field = some child := by
  rw [← Option.isSome_iff_exists, childByField?, List.find?_isSome]
  simpa using h

/-- A function with a name and a list of parameters has a signature. -/
theorem exists_signature? (source : Source) {n : Node} (hsigned : n.Signed)
    (hkind : n.kind = "function_definition") :
    ∃ signature, n.signature? source = some signature := by
  obtain ⟨hname, hparameters⟩ := hsigned hkind
  obtain ⟨name, hname⟩ := exists_childByField? hname
  obtain ⟨parameters, hparameters⟩ := exists_childByField? hparameters
  rw [signature?, hname, hparameters]
  exact ⟨_, rfl⟩

end Node

/-- The tree has functions where the grammar has. -/
theorem eq_of_kindOf_eq_functionDefinition {kind : String}
    (h : kindOf kind = .functionDefinition) : kind = "function_definition" := by
  rw [kindOf] at h
  split_ifs at h
  assumption

/-- A node that says what a concrete node says has the detail that its kind promises. -/
theorem detailed_of_says {source : Source} {part : Node} {node : Tree.Node} (hsigned : part.Signed)
    (hkind : node.kind = kindOf part.kind) (hdetail : node.detail = detail? source part) :
    node.Detailed := by
  rw [detail?] at hdetail
  split at hdetail
  · next hassignment =>
    rw [hassignment] at hkind
    constructor <;> simp [Tree.Node.assignment?, Tree.Node.signature?, hdetail, hkind]
  · next hfunction =>
    obtain ⟨signature, hsignature⟩ :=
      part.exists_signature? source hsigned (eq_of_kindOf_eq_functionDefinition hfunction)
    rw [hfunction] at hkind
    rw [hsignature] at hdetail
    constructor <;> simp [Tree.Node.assignment?, Tree.Node.signature?, hdetail, hkind]
  · next hassignment hfunction =>
    rw [← hkind] at hassignment hfunction
    exact Tree.Node.detailed_of_none hdetail hassignment hfunction

/-- The nodes of a lowered tree are its root and nodes that say what concrete ones say. -/
theorem says_of_mem_nodes {source : Source} {root : Node} {node : Tree.Node}
    (h : node ∈ (lower source root).nodes.toList) :
    (node.kind = .other ∧ node.detail = none) ∨
      ∃ part ∈ root.parts, node.kind = kindOf part.kind ∧ node.detail = detail? source part := by
  have hnodes := toList_nodes_lower source root
  rw [Rose.flatten_eq] at hnodes
  rw [hnodes, List.mem_cons] at h
  rcases h with rfl | hbelow
  · exact .inl ⟨rfl, rfl⟩
  · have hdrop : node ∈ (lower source root).nodes.toList.drop 1 := by
      rw [hnodes]
      exact hbelow
    obtain ⟨part, hpart, hsays⟩ := exists_kept_of_mem_drop hdrop
    exact .inr ⟨part, Node.mem_parts_of_mem_keptAll hpart, congrArg Tree.Content.kind hsays,
      congrArg Tree.Content.detail hsays⟩

/-- A concrete tree whose functions all have a name and parameters is lowered with the details that
its kinds promise. -/
theorem detailed_lower (source : Source) {root : Node} (h : root.AllSigned) :
    (lower source root).Detailed where
  nodes := by
    intro node hnode
    rcases says_of_mem_nodes hnode with ⟨hkind, hdetail⟩ | ⟨part, hpart, hkind, hdetail⟩
    · exact Tree.Node.detailed_of_none hdetail (by simp [hkind]) (by simp [hkind])
    · exact detailed_of_says (h part hpart) hkind hdetail
  root := by
    rw [lower_eq_plantAll, build_plantAll]
    exact ⟨_, Tree.get?_of_standsAt (.refl _), rfl, rfl, rfl⟩

end Concrete

end LineCoach
