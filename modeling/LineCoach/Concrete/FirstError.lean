import LineCoach.Concrete.Source

/-!
# The first error of a concrete tree

Error marks are searched in source order. Only nodes that say there is an error below them are
looked into, so most of a large tree is passed over.
-/

namespace LineCoach.Concrete

open LineCoach.Tree (Position)

namespace Node

/-- Whether the node itself is an error or was put in for something that is missing. -/
def isFault (n : Node) : Bool :=
  n.info.isError || n.info.isMissing

/-- Whether the search for an error looks at the node. -/
def isSuspect (n : Node) : Bool :=
  n.info.hasError || n.info.isMissing

theorem sizes_append (a b : List Node) : sizes (a ++ b) = sizes a + sizes b := by
  induction a with
  | nil => simp [sizes]
  | cons n rest ih => simp only [List.cons_append, sizes, ih]; omega

theorem sizes_filter_le (p : Node → Bool) (list : List Node) :
    sizes (list.filter p) ≤ sizes list := by
  induction list with
  | nil => simp
  | cons n rest ih =>
    simp only [List.filter_cons]
    split <;> simp only [sizes] <;> omega

end Node

/-- The first error or missing node reached from a stack of nodes. -/
def searchFault (stack : List Node) : Option Node :=
  match stack with
  | [] => none
  | n :: rest =>
    if n.isFault then some n else searchFault (n.children.filter Node.isSuspect ++ rest)
termination_by Node.sizes stack
decreasing_by
  have hfilter := Node.sizes_filter_le Node.isSuspect n.children
  have hsize := Node.sizes_children n
  rw [Node.sizes_append, Node.sizes]
  omega

/-- The position of the first error or missing node, or of the root when there is none. -/
def firstError (source : Source) (root : Node) : Position :=
  source.position ((searchFault [root]).getD root).info.start

end LineCoach.Concrete
