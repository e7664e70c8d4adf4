import LineCoach.Proofs.Tree.Rose
import LineCoach.Tree.Builder

/-!
# What the operations of a builder denote

A tree under construction is a rose tree together with a depth: the open nodes are the root, its
last child, the last child of that one, and so on, as many as the depth says. Opening a node puts
it behind the children of the innermost open one, closing only goes up by one, and so nothing is
left to be done at the end.
-/

namespace LineCoach.Tree

namespace Rose

/-- A tree of one node. -/
def leaf (content : Content) : Rose :=
  node content []

/-- Put trees behind the children of the node that is reached by going to the last child as often
as `depth` says. -/
def insert (added : List Rose) : (depth : Nat) → Rose → Rose
  | 0, node content children => node content (children ++ added)
  | depth + 1, node content children =>
    match children.getLast? with
    | none => node content children
    | some last => node content (children.dropLast ++ [insert added depth last])

mutual

/-- Replace the detail of the node that stands at `target` when the root stands at `place`. -/
def attach (target : Nat) (detail : Detail) (place : Nat) : Rose → Rose
  | node content children =>
    node (if place = target then { content with detail := some detail } else content)
      (attaches target detail (place + 1) children)

/-- Replace the detail of the node that stands at `target` in trees that are stored from `place`
on. -/
def attaches (target : Nat) (detail : Detail) (place : Nat) : List Rose → List Rose
  | [] => []
  | tree :: rest =>
    attach target detail place tree :: attaches target detail (place + tree.size) rest

end

/-- The places of the nodes on the way to the last child as often as `depth` says, the innermost
first. -/
def spine (place : Nat) : (depth : Nat) → Rose → List Nat
  | 0, _ => [place]
  | depth + 1, node _ children =>
    match children.getLast? with
    | none => [place]
    | some last => spine (place + 1 + sizes children.dropLast) depth last ++ [place]

/-- In a tree one can go to the last child as often as the number says. -/
inductive Deep : Nat → Rose → Prop where
  | root (tree : Rose) : Deep 0 tree
  | last (content : Content) (before : List Rose) {depth : Nat} {tree : Rose} :
    Deep depth tree → Deep (depth + 1) (node content (before ++ [tree]))

end Rose

/-- A tree under construction: the tree so far, and how far down along last children it is open. -/
structure Draft where
  tree : Rose
  depth : Nat

namespace Draft

/-- Nothing but an open root. -/
def new (label : String) (span : Span) : Draft :=
  ⟨.leaf ⟨.other, label, span, none⟩, 0⟩

/-- Open a node below the innermost open one. -/
def start (draft : Draft) (content : Content) : Draft :=
  ⟨draft.tree.insert [.leaf content] draft.depth, draft.depth + 1⟩

/-- Close the innermost open node, but never the root. -/
def finish (draft : Draft) : Draft :=
  ⟨draft.tree, draft.depth - 1⟩

/-- Give a detail to the node with this number in pre-order. -/
def attach (draft : Draft) (place : Nat) (detail : Detail) : Draft :=
  ⟨draft.tree.attach place detail 0, draft.depth⟩

/-- Carry out one operation. -/
def apply (draft : Draft) : Builder.Step → Draft
  | .start kind label span => draft.start ⟨kind, label, span, none⟩
  | .leaf kind label span => (draft.start ⟨kind, label, span, none⟩).finish
  | .finish => draft.finish
  | .attach place detail => draft.attach place detail

end Draft

/-- The rose tree that the operations of a script denote. -/
def Script.rose (script : Script) : Rose :=
  (script.steps.foldl Draft.apply (Draft.new script.label script.span)).tree

namespace Rose

@[simp]
theorem insert_last (added before : List Rose) (depth : Nat) (content : Content) (tree : Rose) :
    insert added (depth + 1) (node content (before ++ [tree])) =
      node content (before ++ [insert added depth tree]) := by
  simp [insert]

@[simp]
theorem spine_last (place depth : Nat) (content : Content) (before : List Rose) (tree : Rose) :
    spine place (depth + 1) (node content (before ++ [tree])) =
      spine (place + 1 + sizes before) depth tree ++ [place] := by
  simp [spine]

/-- The innermost open node can be closed. -/
theorem Deep.pred {depth : Nat} {tree : Rose} (h : Deep (depth + 1) tree) : Deep depth tree := by
  induction depth generalizing tree with
  | zero => exact .root tree
  | succ depth ih =>
    cases h with
    | last content before hlast => exact .last content before (ih hlast)

/-- Putting trees below an open node adds their nodes. -/
theorem size_insert {added : List Rose} {depth : Nat} {tree : Rose} (h : Deep depth tree) :
    (insert added depth tree).size = tree.size + sizes added := by
  induction h with
  | root tree =>
    cases tree with
    | node content children => simp only [insert, size, sizes_append]; omega
  | last content before hlast ih =>
    simp only [insert_last, size, sizes_append, sizes, ih]
    omega

/-- A tree that is put below the innermost open node can be opened. -/
theorem Deep.insert_succ {depth : Nat} {tree : Rose} (h : Deep depth tree) (added : Rose) :
    Deep (depth + 1) (tree.insert [added] depth) := by
  induction h with
  | root tree =>
    cases tree with
    | node content children => exact .last content children (.root added)
  | last content before hlast ih =>
    rw [insert_last]
    exact .last content before ih

/-- Nothing is changed by putting nothing below an open node. -/
theorem insert_nil {depth : Nat} {tree : Rose} (h : Deep depth tree) :
    tree.insert [] depth = tree := by
  induction h with
  | root tree =>
    cases tree with
    | node content children => rw [Rose.insert, List.append_nil]
  | last content before hlast ih => rw [insert_last, ih]

/-- Trees can be put below an open node one part after the other. -/
theorem insert_append {depth : Nat} {tree : Rose} (h : Deep depth tree) (first second : List Rose) :
    tree.insert (first ++ second) depth = (tree.insert first depth).insert second depth := by
  induction h with
  | root tree =>
    cases tree with
    | node content children => simp only [Rose.insert, List.append_assoc]
  | last content before hlast ih => rw [insert_last, insert_last, insert_last, ih]

/-- A node can be put below an open one first, and its children below the node then. -/
theorem insert_children {depth : Nat} {tree : Rose} (h : Deep depth tree) (content : Content)
    (children : List Rose) :
    (tree.insert [leaf content] depth).insert children (depth + 1) =
      tree.insert [node content children] depth := by
  induction h with
  | root tree =>
    cases tree with
    | node rootContent before => rw [Rose.insert, insert_last]; rfl
  | last rootContent before hlast ih => rw [insert_last, insert_last, insert_last, ih]

/-- The way down begins at the root, so it is never empty. -/
theorem spine_ne_nil (place depth : Nat) (tree : Rose) : spine place depth tree ≠ [] := by
  cases depth with
  | zero => exact List.cons_ne_nil _ _
  | succ depth =>
    cases tree with
    | node content children =>
      simp only [spine]
      split
      · exact List.cons_ne_nil _ _
      · simp

/-- The way down to the innermost open node leaves the way to the one around it. -/
theorem tail_spine {depth : Nat} {tree : Rose} (place : Nat) (h : Deep (depth + 1) tree) :
    (spine place (depth + 1) tree).tail = spine place depth tree := by
  induction depth generalizing tree place with
  | zero =>
    cases h with
    | last content before hlast => rw [spine_last]; rfl
  | succ depth ih =>
    cases h with
    | last content before hlast =>
      rw [spine_last, spine_last, List.tail_append_of_ne_nil (spine_ne_nil _ _ _), ih _ hlast]

/-- A new innermost node stands behind all others. -/
theorem spine_insert_succ {depth : Nat} {tree : Rose} (place : Nat) (h : Deep depth tree)
    (added : Rose) :
    spine place (depth + 1) (tree.insert [added] depth) =
      (place + tree.size) :: spine place depth tree := by
  induction h generalizing place with
  | root tree =>
    cases tree with
    | node content children =>
      rw [insert, spine_last, spine, spine, size]
      simp only [List.singleton_append, List.cons.injEq, and_true]
      omega
  | last content before hlast ih =>
    rw [insert_last, spine_last, spine_last, ih, size, sizes_append, sizes, sizes]
    simp only [List.cons_append, List.cons.injEq, and_true]
    omega

/-- The nodes on the way down stand inside the tree. -/
theorem mem_spine_bounds {place depth : Nat} {tree : Rose} (h : Deep depth tree) {other : Nat}
    (hmem : other ∈ spine place depth tree) : place ≤ other ∧ other < place + tree.size := by
  induction h generalizing place with
  | root tree =>
    have hpos := tree.size_pos
    rw [spine, List.mem_singleton] at hmem
    omega
  | last content before hlast ih =>
    rw [spine_last, List.mem_append, List.mem_singleton] at hmem
    rw [size, sizes_append, sizes, sizes]
    rcases hmem with hinner | rfl
    · have hbounds := ih hinner
      omega
    · omega

mutual

/-- A detail changes nothing about the size of a tree. -/
@[simp]
theorem size_attach (target : Nat) (detail : Detail) (place : Nat) :
    (tree : Rose) → (attach target detail place tree).size = tree.size
  | node content children => by
    rw [attach, size, size, sizes_attaches]

@[simp]
theorem sizes_attaches (target : Nat) (detail : Detail) (place : Nat) :
    (trees : List Rose) → sizes (attaches target detail place trees) = sizes trees
  | [] => rfl
  | tree :: rest => by
    rw [attaches, sizes, sizes, size_attach, sizes_attaches]

end

theorem attaches_append (target : Nat) (detail : Detail) (place : Nat) (first second : List Rose) :
    attaches target detail place (first ++ second) =
      attaches target detail place first ++
        attaches target detail (place + sizes first) second := by
  induction first generalizing place with
  | nil => simp only [List.nil_append, attaches, sizes, Nat.add_zero]
  | cons tree rest ih => simp only [List.cons_append, attaches, sizes, ih, Nat.add_assoc]

mutual

/-- A detail for a place behind a tree does not change the tree. -/
theorem attach_of_le {target place : Nat} (detail : Detail) :
    (tree : Rose) → place + tree.size ≤ target → tree.attach target detail place = tree
  | node content children, h => by
    rw [size] at h
    rw [attach, if_neg (by omega), attaches_of_le detail children (by omega)]

theorem attaches_of_le {target place : Nat} (detail : Detail) :
    (trees : List Rose) → place + sizes trees ≤ target → attaches target detail place trees = trees
  | [], _ => rfl
  | tree :: rest, h => by
    rw [sizes] at h
    rw [attaches, attach_of_le detail tree (by omega), attaches_of_le detail rest (by omega)]

end

/-- A leaf that was just added gets its detail as if it had been added with it. -/
theorem attach_insert {depth : Nat} {tree : Rose} (h : Deep depth tree) (content : Content)
    (detail : Detail) (place : Nat) :
    (tree.insert [leaf content] depth).attach (place + tree.size) detail place =
      tree.insert [leaf { content with detail := some detail }] depth := by
  induction h generalizing place with
  | root tree =>
    cases tree with
    | node rootContent children =>
      rw [Rose.insert, attach, attaches_append, size, if_neg (by omega),
        attaches_of_le detail children (by omega), attaches, attaches, leaf, attach,
        if_pos (by omega)]
      rfl
  | @last rootContent before depth tree hlast ih =>
    have htarget : place + (node rootContent (before ++ [tree])).size =
        place + 1 + sizes before + tree.size := by
      rw [size, sizes_append, sizes, sizes]
      omega
    have hpos := tree.size_pos
    rw [insert_last, attach, htarget, attaches_append, if_neg (by omega),
      attaches_of_le detail before (by omega), attaches, attaches, ih, insert_last]

/-- What is open stays open when a detail is attached. -/
theorem Deep.attach {depth : Nat} {tree : Rose} (target : Nat) (detail : Detail) (place : Nat)
    (h : Deep depth tree) : Deep depth (tree.attach target detail place) := by
  induction h generalizing place with
  | root tree => exact .root _
  | last content before hlast ih =>
    rw [Rose.attach, attaches_append, attaches, attaches]
    exact .last _ _ (ih _)

/-- The open nodes stay where they are when a detail is attached. -/
theorem spine_attach {depth : Nat} {tree : Rose} (target : Nat) (detail : Detail)
    (place start : Nat) (h : Deep depth tree) :
    spine start depth (tree.attach target detail place) = spine start depth tree := by
  induction h generalizing place start with
  | root tree => rfl
  | last content before hlast ih =>
    rw [attach, attaches_append, attaches, attaches, spine_last, spine_last, ih, sizes_attaches]

/-- Trees with details attached stand where they stood. -/
theorem places_attaches (target : Nat) (detail : Detail) (place start : Nat) (trees : List Rose) :
    places start (attaches target detail place trees) = places start trees := by
  induction trees generalizing place start with
  | nil => rfl
  | cons tree rest ih => rw [attaches, places, places, size_attach, ih]

end Rose

end LineCoach.Tree
