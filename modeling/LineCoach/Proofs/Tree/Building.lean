import LineCoach.Proofs.Tree.Draft
import LineCoach.Proofs.Tree.Links
import LineCoach.Proofs.Tree.Locate

/-!
# A builder keeps its draft

`Represents` relates a builder to a draft: the nodes of the builder, with all that is open closed,
are the stored form of the draft, and the open nodes are those that the draft says. Every operation
keeps the relation, and so the tree that is built is the stored form of the draft.
-/

namespace LineCoach.Tree

/-- A stored node after the detail of the node at `target` was replaced. -/
def Node.attachAt (target : Nat) (detail : Detail) (node : Node) : Node :=
  if node.id = target then node.withDetail detail else node

/-- A stored node after a node was added at the place `added`, below the innermost of the open
nodes. All open nodes now end behind the new one. -/
def Node.grow (opened : List Nat) (added : Nat) (node : Node) : Node :=
  let ended := if node.id ∈ opened then node.endAt (added + 1) else node
  if some node.id = opened.head? then ended.addChild added else ended

/-- Nodes that are not open do not change when a node is added. -/
theorem map_grow_of_not_mem {opened : List Nat} {nodes : List Node} (added : Nat)
    (h : ∀ node ∈ nodes, node.id ∉ opened) : nodes.map (Node.grow opened added) = nodes := by
  refine (List.map_congr_left ?_).trans (List.map_id nodes)
  intro node hnode
  have hhead : some node.id ≠ opened.head? := fun heq =>
    h node hnode (List.mem_of_head? heq.symm)
  simp [Node.grow, h node hnode, hhead]

/-- For a node that is not the outermost open one, that one makes no difference. -/
theorem Node.grow_append {opened : List Nat} {place : Nat} {node : Node} (added : Nat)
    (hopened : opened ≠ []) (h : node.id ≠ place) :
    node.grow (opened ++ [place]) added = node.grow opened added := by
  simp only [grow, List.mem_append, List.mem_singleton, h, or_false,
    List.head?_append_of_ne_nil opened hopened]

namespace Rose

/-- Attaching a detail changes the stored root if it is the one that is meant. -/
theorem head_attach (target : Nat) (detail : Detail) (parent : Option Nat) (place : Nat)
    (tree : Rose) :
    (tree.attach target detail place).head parent place =
      (tree.head parent place).attachAt target detail := by
  cases tree with
  | node content children =>
    by_cases h : place = target <;>
      simp [attach, head, Rose.content, Rose.children, Node.attachAt, Node.withDetail, h,
        places_attaches, size]

mutual

/-- Attaching a detail changes one stored node. -/
theorem flatten_attach (target : Nat) (detail : Detail) (parent : Option Nat) (place : Nat) :
    (tree : Rose) → (tree.attach target detail place).flatten parent place =
      (tree.flatten parent place).map (Node.attachAt target detail)
  | node content children => by
    rw [flatten_eq, head_attach, flatten_eq, List.map_cons]
    congr 1
    rw [attach]
    exact flattens_attaches target detail (some place) (place + 1) children

theorem flattens_attaches (target : Nat) (detail : Detail) (parent : Option Nat) (place : Nat) :
    (trees : List Rose) → flattens parent place (attaches target detail place trees) =
      (flattens parent place trees).map (Node.attachAt target detail)
  | [] => rfl
  | tree :: rest => by
    rw [attaches, flattens, flattens, List.map_append, size_attach, flatten_attach,
      flattens_attaches]

end

/-- The nodes of stored trees stand between the first place and the end. -/
theorem mem_flattens_bounds {parent : Option Nat} {place : Nat} {trees : List Rose} {found : Node}
    (h : found ∈ flattens parent place trees) :
    place ≤ found.id ∧ found.id < place + sizes trees := by
  have hid : found.id ∈ (flattens parent place trees).map Node.id := List.mem_map_of_mem h
  rwa [map_id_flattens, List.mem_range'_1] at hid

/-- A node that is open and gets a leaf as its last child lists the leaf and ends behind it. -/
theorem head_insert_root (parent : Option Nat) (place : Nat) (rootContent content : Content)
    (children : List Rose) :
    (node rootContent (children ++ [leaf content])).head parent place =
      ((node rootContent children).head parent place).grow [place]
        (place + (node rootContent children).size) := by
  have hplaces : places (place + 1) (children ++ [leaf content]) =
      places (place + 1) children ++ [place + (node rootContent children).size] := by
    rw [places_append, places, places, size]
    congr 2
    omega
  have hend : place + (node rootContent (children ++ [leaf content])).size =
      place + (node rootContent children).size + 1 := by
    simp only [size, sizes_append, sizes, leaf]
    omega
  simp [head, Rose.content, Rose.children, Node.grow, Node.endAt, Node.addChild, hplaces, hend]

/-- A node that is open, but not the innermost one, only ends further behind. -/
theorem head_insert_last {depth : Nat} {tree : Rose} (h : Deep depth tree) (parent : Option Nat)
    (place : Nat) (rootContent content : Content) (before : List Rose) :
    (node rootContent (before ++ [tree.insert [leaf content] depth])).head parent place =
      ((node rootContent (before ++ [tree])).head parent place).grow
        (spine (place + 1 + sizes before) depth tree ++ [place])
        (place + (node rootContent (before ++ [tree])).size) := by
  have hinner : some place ≠ (spine (place + 1 + sizes before) depth tree).head? := by
    intro hhead
    have hbounds := mem_spine_bounds h (List.mem_of_head? hhead.symm)
    omega
  have hplaces : places (place + 1) (before ++ [tree.insert [leaf content] depth]) =
      places (place + 1) (before ++ [tree]) := by
    rw [places_append, places_append, places, places, places, places]
  have hend : place + (node rootContent (before ++ [tree.insert [leaf content] depth])).size =
      place + (node rootContent (before ++ [tree])).size + 1 := by
    simp only [size, sizes_append, sizes, leaf, size_insert h]
    omega
  simp [head, Rose.content, Rose.children, Node.grow, Node.endAt, hplaces, hend, hinner,
    List.head?_append_of_ne_nil _ (spine_ne_nil _ _ _)]

/-- Adding a leaf below the innermost open node changes the open nodes, and stores the leaf behind
all others. -/
theorem flatten_insert {depth : Nat} {tree : Rose} (h : Deep depth tree) (content : Content)
    (parent : Option Nat) (place : Nat) :
    (tree.insert [leaf content] depth).flatten parent place =
      (tree.flatten parent place).map (Node.grow (spine place depth tree) (place + tree.size)) ++
        [(leaf content).head (spine place depth tree).head? (place + tree.size)] := by
  induction h generalizing parent place with
  | root tree =>
    cases tree with
    | node rootContent children =>
      have hsame : (flattens (some place) (place + 1) children).map
          (Node.grow [place] (place + (node rootContent children).size)) =
            flattens (some place) (place + 1) children := by
        apply map_grow_of_not_mem
        intro found hfound
        have hbounds := mem_flattens_bounds hfound
        rw [List.mem_singleton]
        omega
      have hplace : place + (node rootContent children).size = place + 1 + sizes children := by
        rw [size]
        omega
      rw [insert, flatten, head_insert_root, flattens_append, flatten, flattens_singleton, spine,
        List.map_cons, hsame, hplace]
      rfl
  | @last rootContent before depth tree hlast ih =>
    let inner := place + 1 + sizes before
    let opened := spine inner depth tree
    have hplace : place + (node rootContent (before ++ [tree])).size = inner + tree.size := by
      rw [size, sizes_append, sizes, sizes]
      omega
    have hhead : (opened ++ [place]).head? = opened.head? :=
      List.head?_append_of_ne_nil _ (spine_ne_nil _ _ _)
    -- the children before the last one are closed
    have hbefore : (flattens (some place) (place + 1) before).map
        (Node.grow (opened ++ [place]) (inner + tree.size)) =
          flattens (some place) (place + 1) before := by
      apply map_grow_of_not_mem
      intro found hfound hmem
      have hbounds := mem_flattens_bounds hfound
      rcases List.mem_append.1 hmem with hinner | hroot
      · have hspine := mem_spine_bounds hlast hinner
        omega
      · rw [List.mem_singleton] at hroot
        omega
    have hinside : (tree.flatten (some place) inner).map
        (Node.grow (opened ++ [place]) (inner + tree.size)) =
          (tree.flatten (some place) inner).map (Node.grow opened (inner + tree.size)) := by
      apply List.map_congr_left
      intro found hfound
      apply Node.grow_append _ (spine_ne_nil _ _ _)
      rw [← flattens_singleton] at hfound
      have hbounds := mem_flattens_bounds hfound
      omega
    rw [insert_last, flatten, head_insert_last hlast, flattens_append, flattens_singleton, ih,
      spine_last, flatten, flattens_append, flattens_singleton, List.map_cons, List.map_append,
      hplace, hbefore, hinside, hhead]
    simp only [List.cons_append, List.append_assoc]
    rfl

end Rose

/-- Changing the node at a place is changing the node that names the place. -/
theorem Placed.toList_modify {nodes : Array Node} (h : Placed nodes) (place : Nat)
    (change : Node → Node) :
    (nodes.modify place change).toList =
      nodes.toList.map fun node => if node.id = place then change node else node := by
  apply List.ext_getElem?
  intro other
  rw [Array.getElem?_toList, Array.getElem?_modify, List.getElem?_map, Array.getElem?_toList]
  cases hnode : nodes[other]? with
  | none => simp
  | some node =>
    have hid : node.id = other := h other node hnode
    by_cases hplace : place = other
    · simp [hplace, hid]
    · simp [hplace, hid, Ne.symm hplace]

namespace Builder

theorem toList_link {nodes : Array Node} (h : Placed nodes) (parent : Option Nat) (child : Nat) :
    (link nodes parent child).toList =
      nodes.toList.map fun node =>
        if some node.id = parent then node.addChild child else node := by
  cases parent with
  | none => simp [link]
  | some place => simp only [link, h.toList_modify, Option.some.injEq]

/-- Closing places one after the other sets the end of every node at one of them. -/
theorem toList_foldl_close {nodes : Array Node} (h : Placed nodes) (opened : List Nat) :
    (opened.foldl close nodes).toList =
      nodes.toList.map fun node =>
        if node.id ∈ opened then node.endAt nodes.size else node := by
  induction opened generalizing nodes with
  | nil => simp
  | cons place rest ih =>
    have hsize : (close nodes place).size = nodes.size := Array.size_modify
    rw [List.foldl_cons, ih (placed_close h place), hsize, close, h.toList_modify, List.map_map]
    apply List.map_congr_left
    intro node _
    by_cases hplace : node.id = place <;> by_cases hrest : node.id ∈ rest <;>
      simp [hplace, hrest, Node.endAt]

/-- With all that is open closed, there are as many nodes as before. -/
theorem size_closed (builder : Builder) : builder.closed.size = builder.nodes.size := by
  have hlength := congrArg List.length (toList_foldl_close builder.placed builder.opened)
  rwa [List.length_map, Array.length_toList, Array.length_toList] at hlength

/-- Opening a node and then closing all gives the nodes as they were when all was closed, with the
new one added. -/
theorem closed_start (builder : Builder) (kind : Kind) (label : String) (span : Span) :
    (builder.start kind label span).closed.toList =
      builder.closed.toList.map (Node.grow builder.opened builder.nodes.size) ++
        [(Rose.leaf ⟨kind, label, span, none⟩).head builder.opened.head? builder.nodes.size] := by
  let added : Node := (Rose.leaf ⟨kind, label, span, none⟩).head builder.opened.head?
    builder.nodes.size
  have hnodes : (builder.start kind label span).nodes.toList =
      (link builder.nodes builder.opened.head? builder.nodes.size).toList ++ [added] := by
    rw [start, Array.toList_push]
    rfl
  have hsize : (builder.start kind label span).nodes.size = builder.nodes.size + 1 := by
    simp only [start, Array.size_push, size_link]
  rw [closed, toList_foldl_close (builder.start kind label span).placed, hnodes, hsize,
    List.map_append, toList_link builder.placed, List.map_map, closed,
    toList_foldl_close builder.placed, List.map_map]
  have hopened : (builder.start kind label span).opened = builder.nodes.size :: builder.opened := rfl
  have hadded : (if added.id ∈ (builder.start kind label span).opened
      then added.endAt (builder.nodes.size + 1) else added) = added := by
    rw [if_pos (hopened ▸ List.mem_cons_self)]
    rfl
  rw [List.map_singleton, hadded]
  congr 1
  apply List.map_congr_left
  intro node hnode
  obtain ⟨place, hplace⟩ := List.getElem?_of_mem hnode
  rw [Array.getElem?_toList] at hplace
  have hlt : place < builder.nodes.size := (Array.getElem?_eq_some_iff.1 hplace).1
  have hid : node.id ≠ builder.nodes.size := by
    rw [builder.placed place node hplace]
    omega
  by_cases hmem : node.id ∈ builder.opened <;> by_cases htop : some node.id = builder.opened.head? <;>
    simp [hopened, hmem, htop, hid, Node.grow, Node.endAt, Node.addChild]

/-- Closing a node takes it from the open ones, if it is not the last of them. -/
theorem opened_finish {builder : Builder} (h : builder.opened.tail ≠ []) :
    builder.finish.opened = builder.opened.tail := by
  obtain ⟨nodes, opened, placed⟩ := builder
  rcases opened with _ | ⟨place, _ | ⟨next, more⟩⟩
  · exact absurd rfl h
  · exact absurd rfl h
  · rfl

/-- Closing a node early does not change what is there when all is closed. -/
theorem closed_finish (builder : Builder) : builder.finish.closed = builder.closed := by
  obtain ⟨nodes, opened, placed⟩ := builder
  rcases opened with _ | ⟨place, _ | ⟨next, more⟩⟩ <;> rfl

/-- A detail can be attached before or after all is closed. -/
theorem closed_attach (builder : Builder) (place : Nat) (detail : Detail) :
    (builder.attach place detail).closed.toList =
      builder.closed.toList.map (Node.attachAt place detail) := by
  have hnodes : (builder.attach place detail).nodes.toList =
      builder.nodes.toList.map (Node.attachAt place detail) := builder.placed.toList_modify ..
  have hsize : (builder.attach place detail).nodes.size = builder.nodes.size := Array.size_modify
  rw [closed, toList_foldl_close (builder.attach place detail).placed, hnodes, hsize, closed,
    toList_foldl_close builder.placed, List.map_map, List.map_map]
  apply List.map_congr_left
  intro node _
  have hopened : (builder.attach place detail).opened = builder.opened := rfl
  by_cases htarget : place = node.id
  · subst htarget
    by_cases hmem : node.id ∈ builder.opened <;>
      simp [hopened, hmem, Node.attachAt, Node.endAt, Node.withDetail]
  · by_cases hmem : node.id ∈ builder.opened <;>
      simp [hopened, hmem, Ne.symm htarget, Node.attachAt, Node.endAt]

/-- The builder holds the nodes of a draft, and the open ones are those that the draft says. -/
structure Represents (builder : Builder) (draft : Draft) : Prop where
  deep : Rose.Deep draft.depth draft.tree
  opened : builder.opened = draft.tree.spine 0 draft.depth
  closed : builder.closed.toList = draft.tree.flatten none 0

namespace Represents

variable {builder : Builder} {draft : Draft}

/-- The next free place of a builder is the size of the draft. -/
theorem size_eq (h : Represents builder draft) : builder.nodes.size = draft.tree.size := by
  rw [← size_closed, ← Array.length_toList, h.closed, Rose.length_flatten]

/-- A new builder holds nothing but an open root. -/
theorem new (label : String) (span : Span) :
    Represents (Builder.new label span) (Draft.new label span) where
  deep := .root _
  opened := rfl
  closed := rfl

/-- Opening a node in the builder is opening it in the draft. -/
theorem start (h : Represents builder draft) (kind : Kind) (label : String) (span : Span) :
    Represents (builder.start kind label span) (draft.start ⟨kind, label, span, none⟩) where
  deep := h.deep.insert_succ _
  opened := by
    change builder.nodes.size :: builder.opened = _
    rw [h.size_eq, h.opened, Draft.start, Rose.spine_insert_succ 0 h.deep, Nat.zero_add]
  closed := by
    rw [closed_start, h.closed, h.opened, h.size_eq, Draft.start, Rose.flatten_insert h.deep,
      Nat.zero_add]

/-- Closing a node in the builder is closing it in the draft. -/
theorem finish (h : Represents builder draft) : Represents builder.finish draft.finish := by
  obtain ⟨tree, depth⟩ := draft
  have hopened : builder.opened = tree.spine 0 depth := h.opened
  cases depth with
  | zero =>
    have hsame : builder.finish = builder := by
      rw [Builder.finish, hopened]
      rfl
    rw [hsame]
    exact h
  | succ depth =>
    refine ⟨h.deep.pred, ?_, ?_⟩
    · have htail := Rose.tail_spine 0 h.deep
      rw [← hopened] at htail
      rw [opened_finish, htail]
      · rfl
      · rw [htail]
        exact Rose.spine_ne_nil _ _ _
    · rw [closed_finish]
      exact h.closed

/-- Attaching a detail in the builder is attaching it in the draft. -/
theorem attach (h : Represents builder draft) (place : Nat) (detail : Detail) :
    Represents (builder.attach place detail) (draft.attach place detail) where
  deep := h.deep.attach ..
  opened := by
    rw [Draft.attach, Rose.spine_attach _ _ _ _ h.deep]
    exact h.opened
  closed := by
    rw [closed_attach, h.closed, Draft.attach, Rose.flatten_attach]

/-- Every operation keeps a builder and its draft together. -/
theorem apply (h : Represents builder draft) (step : Step) :
    Represents (builder.apply step) (draft.apply step) := by
  cases step with
  | start kind label span => exact h.start kind label span
  | leaf kind label span => exact (h.start kind label span).finish
  | finish => exact h.finish
  | attach place detail => exact h.attach place detail

/-- Any sequence of operations keeps a builder and its draft together. -/
theorem foldl_apply (h : Represents builder draft) (steps : List Step) :
    Represents (steps.foldl Builder.apply builder) (steps.foldl Draft.apply draft) := by
  induction steps generalizing builder draft with
  | nil => exact h
  | cons step rest ih => exact ih (h.apply step)

/-- What is built is the stored form of the draft. -/
theorem build_eq (h : Represents builder draft) : builder.build = ofRose draft.tree := by
  apply eq_of_nodes
  apply Array.toList_inj.1
  exact h.closed

end Represents

end Builder

/-- An id is written down somewhere in the tree: by a node for itself, for its parent or for a
child, or in the index of lines. -/
def Stores (tree : Tree) (id : Nat) : Prop :=
  (∃ node ∈ tree.nodes.toList, node.id = id ∨ node.parent = some id ∨ id ∈ node.children) ∨
    ∃ line : Nat, tree.firstOnLine[line]? = some id

/-- In a tree with consistent links every id that is written down is the place of a node. -/
theorem Linked.get?_of_stores {tree : Tree} (h : tree.Linked) {id : Nat} (hid : tree.Stores id) :
    ∃ node, tree.get? id = some node := by
  rcases hid with ⟨node, hmem, hown | hparent | hchild⟩ | ⟨line, hline⟩
  · exact ⟨node, hown ▸ tree.get?_id hmem⟩
  · have hnode := tree.get?_id hmem
    rcases Nat.eq_zero_or_pos node.id with hroot | hpos
    · obtain ⟨root, hfound, hnone⟩ := h.root
      rw [hroot, ← root?, hfound, Option.some.injEq] at hnode
      rw [← hnode, hnone] at hparent
      cases hparent
    · obtain ⟨parent, heq, hlt⟩ := h.parent_lt hnode hpos
      obtain rfl : parent = id := Option.some.inj (heq.symm.trans hparent)
      have hsize := (Array.getElem?_eq_some_iff.1 hnode).1
      exact ⟨_, Array.getElem?_eq_getElem (Nat.lt_trans hlt hsize)⟩
  · obtain ⟨found, hfound, -⟩ := (h.mem_children_iff (tree.get?_id hmem)).1 hchild
    exact ⟨found, hfound⟩
  · exact ⟨_, Array.getElem?_eq_getElem (lt_size_of_firstOnLine hline)⟩

/-- The tree of any script is the stored form of the rose tree that the script denotes. -/
theorem Script.build_eq_ofRose (script : Script) : script.build = ofRose script.rose :=
  ((Builder.Represents.new script.label script.span).foldl_apply script.steps).build_eq

/-- Whatever operations a tree is built by, balanced or not, its nodes are the pre-order of the
rose tree that they denote, each at its own place, with consistent links, and no id that is written
down in it leads out of it. -/
theorem Script.build_preorder (script : Script) :
    script.build.nodes.toList = script.rose.flatten none 0 ∧
      (∀ place node, script.build.get? place = some node → node.id = place) ∧
      script.build.Linked ∧
      ∀ id, script.build.Stores id → ∃ node, script.build.get? id = some node ∧
        id < node.subtreeEnd ∧ node.subtreeEnd ≤ script.build.size := by
  rw [script.build_eq_ofRose]
  have hlinked := linked_ofRose script.rose
  refine ⟨rfl, (ofRose script.rose).placed, hlinked, ?_⟩
  intro id hid
  obtain ⟨node, hnode⟩ := hlinked.get?_of_stores hid
  exact ⟨node, hnode, hlinked.lt_subtreeEnd hnode, hlinked.subtreeEnd_le hnode⟩

end LineCoach.Tree
