import LineCoach.Concrete.Lowering
import LineCoach.Proofs.Tree.Building

/-!
# Lowering by recursion

Lowering is a walk with a cursor, a stack of marks and a builder that must stay in step. Said by
recursion over the concrete tree it is short: a token or a part of a string leaves nothing, a
wrapper leaves what its children leave, and any other node leaves one tree. The walk is shown to
carry out exactly the operations that build those trees, and so to give their stored form.
-/

namespace LineCoach.Concrete

open LineCoach.Tree (Builder Content Draft Rose)

namespace Node

mutual

/-- A node and all that are below it, in pre-order. -/
def parts : Node → List Node
  | node info children => node info children :: partsAll children

/-- The parts of nodes, one after the other. -/
def partsAll : List Node → List Node
  | [] => []
  | n :: rest => parts n ++ partsAll rest

end

theorem mem_parts_self (n : Node) : n ∈ n.parts := by
  cases n with
  | node info children =>
    rw [parts]
    exact List.mem_cons_self

/-- The parts of the children are parts of the node. -/
theorem mem_parts_of_mem_partsAll {n part : Node} (h : part ∈ partsAll n.children) :
    part ∈ n.parts := by
  cases n with
  | node info children =>
    rw [parts]
    exact List.mem_cons_of_mem _ h

/-- The parts of each node are parts of the nodes. -/
theorem mem_partsAll_of_mem {nodes : List Node} {n part : Node} (h : n ∈ nodes)
    (hpart : part ∈ n.parts) : part ∈ partsAll nodes := by
  induction nodes with
  | nil => cases h
  | cons first rest ih =>
    rw [partsAll]
    rcases List.mem_cons.1 h with rfl | hrest
    · exact List.mem_append_left _ hpart
    · exact List.mem_append_right _ (ih hrest)

end Node

/-- What the tree says about a concrete node that is kept. -/
def content (source : Source) (n : Node) : Content :=
  ⟨kindOf n.kind, n.kind, source.span n, detail? source n⟩

mutual

/-- The trees that a concrete node leaves in the place where it stands. -/
def lowered (source : Source) : Node → List Rose
  | .node info children =>
    if !info.named || stringPartKinds.contains info.kind then []
    else if transparentKinds.contains info.kind then lowereds source children
    else [.node (content source (.node info children)) (lowereds source children)]

/-- The trees that concrete nodes leave, one after the other. -/
def lowereds (source : Source) : List Node → List Rose
  | [] => []
  | n :: rest => lowered source n ++ lowereds source rest

end

/-- The tree of a whole concrete tree. The root is kept whatever it is, without kind or detail. -/
def loweredRoot (source : Source) (root : Node) : Rose :=
  .node ⟨.other, root.kind, source.span root, none⟩ (lowereds source root.children)

/-- Open a node with all that it says about itself. -/
def openContent (builder : Builder) (content : Content) : Builder :=
  let opened := builder.start content.kind content.label content.span
  match content.detail with
  | some detail => opened.attach builder.nodes.size detail
  | none => opened

mutual

/-- The operations that build a tree below the innermost open node. -/
def plant (builder : Builder) : Rose → Builder
  | .node content children => (plantAll (openContent builder content) children).finish

/-- The operations that build trees one after the other. -/
def plantAll (builder : Builder) : List Rose → Builder
  | [] => builder
  | tree :: rest => plantAll (plant builder tree) rest

end

/-- Building trees can be interrupted between any two of them. -/
theorem plantAll_append (builder : Builder) (first second : List Rose) :
    plantAll builder (first ++ second) = plantAll (plantAll builder first) second := by
  induction first generalizing builder with
  | nil => rw [List.nil_append, plantAll]
  | cons tree rest ih => rw [List.cons_append, plantAll, plantAll, ih]

/-- What a walk builds once it has left the node under its cursor: first the siblings to the
right, then what follows the nodes around it, closing those that were opened. -/
def complete (source : Source) (builder : Builder) (right : List Node) :
    (above : List (Node × List Node)) → (opened : List Bool) → Builder
  | _, [] => plantAll builder (lowereds source right)
  | [], _ :: _ => plantAll builder (lowereds source right)
  | (_, next) :: above, wasOpened :: rest =>
    let done := plantAll builder (lowereds source right)
    complete source (if wasOpened then done.finish else done) next above rest

/-- To complete a walk is to build what the next sibling leaves and go on behind it. -/
theorem complete_cons (source : Source) (builder : Builder) (n : Node) (right : List Node)
    (above : List (Node × List Node)) (opened : List Bool) :
    complete source builder (n :: right) above opened =
      complete source (plantAll builder (lowered source n)) right above opened := by
  rcases opened with _ | ⟨wasOpened, rest⟩
  · simp only [complete, lowereds, plantAll_append]
  · rcases above with _ | ⟨⟨around, next⟩, above⟩
    · simp only [complete, lowereds, plantAll_append]
    · simp only [complete, lowereds, plantAll_append]

/-- Where the walk goes on after a node, it goes on to what is still to be built. -/
theorem complete_advance (source : Source) (builder : Builder) (cursor : Cursor)
    (opened : List Bool) :
    complete source builder cursor.right cursor.above opened =
      match advance builder cursor opened with
      | (done, none) => done
      | (gone, some (next, rest)) =>
        complete source (plantAll gone (lowered source next.node)) next.right next.above rest := by
  obtain ⟨n, right, above⟩ := cursor
  induction opened generalizing builder n right above with
  | nil =>
    cases right with
    | nil => simp only [complete, lowereds, plantAll, advance, Cursor.nextSibling?, Option.map_none]
    | cons sibling more => rw [complete_cons]; rfl
  | cons wasOpened rest ih =>
    cases right with
    | cons sibling more => rw [complete_cons]; rfl
    | nil =>
      cases above with
      | nil => rfl
      | cons around above =>
        obtain ⟨around, next⟩ := around
        simp only [complete, lowereds, plantAll, advance, Cursor.nextSibling?, Cursor.parent?]
        exact ih ..

/-- What a concrete node leaves, by its role. -/
theorem lowered_eq (source : Source) (n : Node) :
    lowered source n =
      match n.role with
      | .skip => []
      | .transparent => lowereds source n.children
      | .keep => [.node (content source n) (lowereds source n.children)] := by
  cases n with
  | node info children =>
    have hrole : (Node.node info children).role =
        if !info.named || stringPartKinds.contains info.kind then .skip
        else if transparentKinds.contains info.kind then .transparent else .keep := rfl
    rw [lowered, hrole]
    split
    · rfl
    · split <;> rfl

/-- Going into the first child leaves the rest of the children to the right of the cursor. -/
theorem firstChild?_eq_some {cursor child : Cursor} (h : cursor.firstChild? = some child) :
    cursor.node.children = child.node :: child.right ∧
      child.above = (cursor.node, cursor.right) :: cursor.above := by
  simp only [Cursor.firstChild?] at h
  split at h
  · cases h
  · next first more hchildren =>
    cases h
    exact ⟨hchildren, rfl⟩

/-- A node without children has none to go into. -/
theorem children_eq_nil {cursor : Cursor} (h : cursor.firstChild? = none) :
    cursor.node.children = [] := by
  simp only [Cursor.firstChild?] at h
  split at h
  · assumption
  · cases h

/-- A node that the walk does not go into is built at once. -/
theorem left_eq_plantAll (source : Source) (builder : Builder) (cursor : Cursor)
    (h : (if cursor.node.role = .skip then none else cursor.firstChild?) = none) :
    let entered := if cursor.node.role = .keep then openNode source builder cursor.node else builder
    (if cursor.node.role = .keep then entered.finish else entered) =
      plantAll builder (lowered source cursor.node) := by
  rw [lowered_eq]
  cases hrole : cursor.node.role with
  | skip => rfl
  | transparent =>
    rw [if_neg (by simp [hrole])] at h
    rw [children_eq_nil h]
    rfl
  | keep =>
    rw [if_neg (by simp [hrole])] at h
    rw [children_eq_nil h]
    rfl

/-- A node that the walk goes into is built by building what its children leave, between opening
and closing it if it is kept. -/
theorem plantAll_lowered_of_role (source : Source) (builder : Builder) (n : Node)
    (h : n.role ≠ .skip) :
    plantAll builder (lowered source n) =
      if n.role = .keep then
        (plantAll (openNode source builder n) (lowereds source n.children)).finish
      else plantAll builder (lowereds source n.children) := by
  rw [lowered_eq]
  cases hrole : n.role with
  | skip => exact absurd hrole h
  | transparent => rfl
  | keep => rfl

/-- A walk builds what the node under its cursor leaves, and then all that follows. -/
theorem walk_eq_complete (source : Source) (builder : Builder) (cursor : Cursor)
    (opened : List Bool) :
    walk source builder cursor opened =
      complete source (plantAll builder (lowered source cursor.node)) cursor.right cursor.above
        opened := by
  fun_induction walk source builder cursor opened with
  | case1 builder cursor opened keeps entered child hchild ih =>
    -- the mark that is put on the stack tells `complete` whether to close the node
    have hrole : cursor.node.role ≠ .skip := by
      intro hskip
      simp [hskip] at hchild
    rw [dif_neg hrole] at hchild
    obtain ⟨hchildren, habove⟩ := firstChild?_eq_some hchild
    rw [ih, habove, complete, ← plantAll_append, plantAll_lowered_of_role _ _ _ hrole, hchildren,
      lowereds]
    by_cases hkeep : cursor.node.role = .keep
    · simp only [keeps, entered, hkeep, decide_true, if_true, dite_true]
    · simp only [keeps, entered, hkeep, decide_false, if_false, dite_false]
      rfl
  | case2 builder cursor opened keeps entered hchild left done hdone =>
    have hleft : left = plantAll builder (lowered source cursor.node) :=
      left_eq_plantAll source builder cursor hchild
    rw [← hleft, complete_advance, hdone]
  | case3 builder cursor opened keeps entered hchild left gone next rest hnext ih =>
    have hleft : left = plantAll builder (lowered source cursor.node) :=
      left_eq_plantAll source builder cursor hchild
    rw [← hleft, complete_advance, hnext, ih]

/-- A node is opened in the draft with its detail at once. -/
theorem represents_openContent {builder : Builder} {draft : Draft}
    (h : builder.Represents draft) (content : Content) :
    (openContent builder content).Represents (draft.start content) := by
  obtain ⟨kind, label, span, detail⟩ := content
  have hstart := h.start kind label span
  cases detail with
  | none => exact hstart
  | some detail =>
    have hattach := hstart.attach builder.nodes.size detail
    have hsize : builder.nodes.size = 0 + draft.tree.size := by rw [h.size_eq, Nat.zero_add]
    rw [Draft.start, Draft.attach, hsize, Rose.attach_insert h.deep] at hattach
    rw [← hsize] at hattach
    exact hattach

mutual

/-- Building a tree puts it below the innermost open node of the draft. -/
theorem represents_plant {builder : Builder} {draft : Draft} (h : builder.Represents draft) :
    (tree : Rose) →
      (plant builder tree).Represents ⟨draft.tree.insert [tree] draft.depth, draft.depth⟩
  | .node content children => by
    have hchildren := represents_plantAll (represents_openContent h content) children
    rw [Draft.start, Rose.insert_children h.deep] at hchildren
    rw [plant]
    exact hchildren.finish

theorem represents_plantAll {builder : Builder} {draft : Draft} (h : builder.Represents draft) :
    (trees : List Rose) →
      (plantAll builder trees).Represents ⟨draft.tree.insert trees draft.depth, draft.depth⟩
  | [] => by
    rw [plantAll, Rose.insert_nil h.deep]
    exact h
  | tree :: rest => by
    have hrest := represents_plantAll (represents_plant h tree) rest
    rw [← Rose.insert_append h.deep] at hrest
    rw [plantAll]
    exact hrest

end

/-- Trees that are built below a new root are stored below it. -/
theorem build_plantAll (label : String) (span : Tree.Span) (trees : List Rose) :
    (plantAll (Builder.new label span) trees).build =
      Tree.ofRose (.node ⟨.other, label, span, none⟩ trees) :=
  (represents_plantAll (.new label span) trees).build_eq

/-- The walk from the first child of the root builds what the children of the root leave. -/
theorem lower_eq_plantAll (source : Source) (root : Node) :
    lower source root =
      (plantAll (Builder.new root.kind (source.span root))
        (lowereds source root.children)).build := by
  rw [lower]
  cases hchild : (Cursor.atRoot root).firstChild? with
  | none =>
    have hchildren : root.children = [] := children_eq_nil hchild
    rw [hchildren]
    rfl
  | some child =>
    obtain ⟨hchildren, -⟩ := firstChild?_eq_some hchild
    change root.children = child.node :: child.right at hchildren
    simp only [walk_eq_complete, complete, ← plantAll_append, hchildren, lowereds]

/-- The walk gives the stored form of the recursively lowered tree, for every source and every
concrete tree. -/
theorem lower_eq_ofRose (source : Source) (root : Node) :
    lower source root = Tree.ofRose (loweredRoot source root) := by
  rw [lower_eq_plantAll]
  exact (represents_plantAll (.new root.kind (source.span root)) _).build_eq

namespace Sample

/-- What is said about a node without errors from one byte and point to another. -/
def info (kind field : String) (named : Bool) (first last : Nat × Point) : Info where
  kind := kind
  named := named
  isError := false
  isMissing := false
  hasError := false
  field := field
  startByte := first.1
  endByte := last.1
  start := first.2
  stop := last.2

/-- A node for a rule of the grammar. -/
def part (field kind : String) (first last : Nat × Point) (children : List Node) : Node :=
  .node (info kind field true first last) children

/-- A mere token. -/
def token (kind : String) (first last : Nat × Point) : Node :=
  .node (info kind "" false first last) []

/-- A function with a name of two bytes, and an assignment in its body. -/
def text : List Char :=
  ['d', 'e', 'f', ' ', 'é', '(', 'a', ')', ':', '\n', ' ', 'b', ' ', '=', ' ', '1', '\n']

/-- The concrete tree of the sample text. -/
def root : Node :=
  part "" "module" (0, ⟨0, 0⟩) (18, ⟨2, 0⟩) [
    part "" "function_definition" (0, ⟨0, 0⟩) (17, ⟨1, 6⟩) [
      token "def" (0, ⟨0, 0⟩) (3, ⟨0, 3⟩),
      part "name" "identifier" (4, ⟨0, 4⟩) (6, ⟨0, 6⟩) [],
      part "parameters" "parameters" (6, ⟨0, 6⟩) (9, ⟨0, 9⟩) [
        token "(" (6, ⟨0, 6⟩) (7, ⟨0, 7⟩),
        part "" "identifier" (7, ⟨0, 7⟩) (8, ⟨0, 8⟩) [],
        token ")" (8, ⟨0, 8⟩) (9, ⟨0, 9⟩)],
      token ":" (9, ⟨0, 9⟩) (10, ⟨0, 10⟩),
      part "body" "block" (12, ⟨1, 1⟩) (17, ⟨1, 6⟩) [
        part "" "expression_statement" (12, ⟨1, 1⟩) (17, ⟨1, 6⟩) [
          part "" "assignment" (12, ⟨1, 1⟩) (17, ⟨1, 6⟩) [
            part "left" "identifier" (12, ⟨1, 1⟩) (13, ⟨1, 2⟩) [],
            token "=" (14, ⟨1, 3⟩) (15, ⟨1, 4⟩),
            part "right" "integer" (16, ⟨1, 5⟩) (17, ⟨1, 6⟩) []]]]]]

end Sample

end LineCoach.Concrete
