import LineCoach.Concrete.FirstError
import LineCoach.Proofs.Concrete.Lowering

/-!
# The first error in source order

The search for an error keeps a stack of nodes and looks only into those that say there is an error
below them. Without the stack and without leaving anything out it is short: the first fault among
all parts of the tree, in pre-order. The two agree when the marks of the tree do, that is, when no
fault lies below a node that the search passes over.
-/

namespace LineCoach.Concrete

open LineCoach.Tree (Position)

namespace Node

/-- The marks of a concrete tree agree: a fault is suspect, and so is every node around it. -/
def Marked (n : Node) : Prop :=
  ∀ part ∈ n.parts, ∀ fault ∈ part.parts, fault.isFault = true → part.isSuspect = true

instance (n : Node) : Decidable n.Marked :=
  inferInstanceAs (Decidable (∀ part ∈ n.parts, ∀ fault ∈ part.parts,
    fault.isFault = true → part.isSuspect = true))

/-- The children of a node whose marks agree have marks that do. -/
theorem Marked.child {n child : Node} (h : n.Marked) (hmem : child ∈ n.children) : child.Marked :=
  fun part hpart => h part (mem_parts_of_mem_partsAll (mem_partsAll_of_mem hmem hpart))

/-- A node that is not suspect has no fault in it. -/
theorem Marked.find?_eq_none {n : Node} (h : n.Marked) (hclean : n.isSuspect = false) :
    n.parts.find? isFault = none := by
  rw [List.find?_eq_none]
  intro fault hfault hmark
  rw [h n n.mem_parts_self fault hfault hmark] at hclean
  cases hclean

theorem partsAll_append (first second : List Node) :
    partsAll (first ++ second) = partsAll first ++ partsAll second := by
  induction first with
  | nil => rw [List.nil_append, partsAll, List.nil_append]
  | cons n rest ih => rw [List.cons_append, partsAll, partsAll, ih, List.append_assoc]

/-- The parts of a node are itself and those of its children. -/
theorem parts_eq (n : Node) : n.parts = n :: partsAll n.children := by
  cases n with
  | node info children => rw [parts, Node.children]

/-- Passing over the nodes that are not suspect does not change the first fault. -/
theorem find?_partsAll_filter {nodes : List Node} (h : ∀ n ∈ nodes, n.Marked) :
    (partsAll (nodes.filter isSuspect)).find? isFault = (partsAll nodes).find? isFault := by
  induction nodes with
  | nil => rfl
  | cons n rest ih =>
    rw [List.forall_mem_cons] at h
    rw [partsAll, List.find?_append, ← ih h.2]
    by_cases hsuspect : n.isSuspect = true
    · rw [List.filter_cons_of_pos hsuspect, partsAll, List.find?_append]
    · rw [List.filter_cons_of_neg hsuspect, h.1.find?_eq_none (Bool.eq_false_iff.2 hsuspect),
        Option.none_or]

end Node

/-- The search from a stack finds the first fault among all parts of the nodes on it. -/
theorem searchFault_eq_find? {stack : List Node} (h : ∀ n ∈ stack, n.Marked) :
    searchFault stack = (Node.partsAll stack).find? Node.isFault := by
  fun_induction searchFault stack with
  | case1 => rfl
  | case2 n rest hfault =>
    rw [Node.partsAll, Node.parts_eq, List.cons_append, List.find?_cons_of_pos hfault]
  | case3 n rest hfault ih =>
    rw [List.forall_mem_cons] at h
    have hchildren : ∀ child ∈ n.children, child.Marked := fun _ hmem => h.1.child hmem
    have hpushed : ∀ m ∈ n.children.filter Node.isSuspect ++ rest, m.Marked := by
      intro m hm
      rcases List.mem_append.1 hm with hchild | hrest
      · exact hchildren m (List.mem_of_mem_filter hchild)
      · exact h.2 m hrest
    rw [ih hpushed, Node.partsAll_append, List.find?_append, Node.find?_partsAll_filter hchildren,
      ← List.find?_append, Node.partsAll, Node.parts_eq, List.cons_append,
      List.find?_cons_of_neg hfault]

/-- In a tree whose marks agree, the position of the first error is where the first error or missing
node in pre-order starts, and where the root starts when there is none. -/
theorem firstError_eq_first_fault (source : Source) {root : Node} (h : root.Marked) :
    firstError source root =
      match root.parts.find? Node.isFault with
      | some fault => source.position fault.info.start
      | none => source.position root.info.start := by
  have hsearch : searchFault [root] = root.parts.find? Node.isFault := by
    rw [searchFault_eq_find? (by simpa using h), Node.partsAll, Node.partsAll, List.append_nil]
  rw [firstError, hsearch]
  cases root.parts.find? Node.isFault with
  | none => rfl
  | some fault => rfl

namespace Sample

/-- A node around an error. -/
def around (kind : String) (first last : Nat × Point) (children : List Node) : Node :=
  .node { info kind "" true first last with hasError := true } children

/-- Text that the grammar could not read. -/
def unread (first last : Nat × Point) : Node :=
  .node { info "ERROR" "" true first last with isError := true, hasError := true } []

/-- A token that was put in where the grammar missed one. -/
def missing (kind : String) (place : Nat × Point) : Node :=
  .node { info kind "" false place place with isMissing := true } []

/-- `a`, then `é(b` without its closing parenthesis, then `?`. -/
def faulty : Node :=
  around "module" (0, ⟨0, 0⟩) (8, ⟨2, 1⟩) [
    part "" "expression_statement" (0, ⟨0, 0⟩) (1, ⟨0, 1⟩) [
      part "" "identifier" (0, ⟨0, 0⟩) (1, ⟨0, 1⟩) []],
    around "expression_statement" (2, ⟨1, 0⟩) (6, ⟨1, 4⟩) [
      around "call" (2, ⟨1, 0⟩) (6, ⟨1, 4⟩) [
        part "function" "identifier" (2, ⟨1, 0⟩) (4, ⟨1, 2⟩) [],
        around "argument_list" (4, ⟨1, 2⟩) (6, ⟨1, 4⟩) [
          token "(" (4, ⟨1, 2⟩) (5, ⟨1, 3⟩),
          part "" "identifier" (5, ⟨1, 3⟩) (6, ⟨1, 4⟩) [],
          missing ")" (6, ⟨1, 4⟩)]]],
    unread (7, ⟨2, 0⟩) (8, ⟨2, 1⟩)]

end Sample

/-- The parenthesis that is missing deep in the second line comes before the error of the third. -/
theorem firstError_eq_first_fault_sample :
    Sample.faulty.Marked ∧
      firstError (Source.ofString "a\né(b\n?") Sample.faulty = ⟨2, 3⟩ := by
  have hmarked : Sample.faulty.Marked := by decide
  refine ⟨hmarked, ?_⟩
  rw [firstError_eq_first_fault _ hmarked]
  decide

end LineCoach.Concrete
