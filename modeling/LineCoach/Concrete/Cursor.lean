import LineCoach.Concrete.Basic

/-!
# Walking a concrete tree

A cursor stands on a node and knows the way back to the node the walk began from. It moves to
the first child, the next sibling or the parent, and says when there is none.
-/

namespace LineCoach.Concrete

/-- A place in a concrete tree. -/
structure Cursor where
  /-- The node under the cursor. -/
  node : Node
  /-- The siblings to the right of it. -/
  right : List Node
  /-- The nodes around it, the innermost first, each with the siblings to its right. -/
  above : List (Node × List Node)

namespace Cursor

/-- A cursor on the node where a walk begins. -/
def atRoot (n : Node) : Cursor :=
  ⟨n, [], []⟩

/-- Move to the first child. -/
def firstChild? (cursor : Cursor) : Option Cursor :=
  match cursor.node.children with
  | [] => none
  | child :: more => some ⟨child, more, (cursor.node, cursor.right) :: cursor.above⟩

/-- Move to the next sibling. -/
def nextSibling? (cursor : Cursor) : Option Cursor :=
  match cursor.right with
  | [] => none
  | sibling :: more => some ⟨sibling, more, cursor.above⟩

/-- Move to the parent, which fails only where the walk began. -/
def parent? (cursor : Cursor) : Option Cursor :=
  match cursor.above with
  | [] => none
  | (node, right) :: above => some ⟨node, right, above⟩

/-- Number of nodes of the trees to the right of the nodes around a cursor. -/
def ahead : List (Node × List Node) → Nat
  | [] => 0
  | (_, right) :: above => Node.sizes right + ahead above

/-- Number of nodes that come after the node under the cursor and its descendants. -/
def behind (cursor : Cursor) : Nat :=
  Node.sizes cursor.right + ahead cursor.above

/-- Number of nodes that a walk in source order has still to visit, this one included. -/
def remaining (cursor : Cursor) : Nat :=
  cursor.node.size + cursor.behind

theorem behind_lt_remaining (cursor : Cursor) : cursor.behind < cursor.remaining := by
  have := Node.size_pos cursor.node
  rw [remaining]
  omega

theorem remaining_firstChild {cursor next : Cursor} (h : cursor.firstChild? = some next) :
    next.remaining < cursor.remaining := by
  have hsize := Node.sizes_children cursor.node
  simp only [firstChild?] at h
  split at h
  · cases h
  · next child more hchildren =>
    cases h
    rw [hchildren] at hsize
    simp only [Node.sizes] at hsize
    simp only [remaining, behind, ahead]
    omega

theorem remaining_nextSibling {cursor next : Cursor} (h : cursor.nextSibling? = some next) :
    next.remaining = cursor.behind := by
  simp only [nextSibling?] at h
  split at h
  · cases h
  · next sibling more hright =>
    cases h
    simp only [remaining, behind, hright, Node.sizes]
    omega

theorem behind_parent {cursor next : Cursor} (h : cursor.parent? = some next) :
    next.behind ≤ cursor.behind := by
  simp only [parent?] at h
  split at h
  · cases h
  · next node right above habove =>
    cases h
    simp only [behind, habove, ahead]
    omega

end Cursor

end LineCoach.Concrete
