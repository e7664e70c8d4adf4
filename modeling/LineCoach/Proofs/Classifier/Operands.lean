import LineCoach.Proofs.Classifier.Unwrap
import LineCoach.Proofs.Tree.Building
import LineCoach.Proofs.Tree.SameLine

/-!
# Operands and operators of a line

The measure of a line adds up, operator by operator, the sides that are no operators. Every operator
has two sides, so what is missing are the operators that are a side of another one. Each of these is
a side of one operator only, since a node has one parent. So operators that are listed together
with all operators among their sides have as many operands as there are operators and, once more, as
there are operators that are a side of none. The operators of a line are such a list, since children
lie on the line as their parents do, and so are those that hang on one of them.
-/

namespace LineCoach

/-- Spans are in order, and children lie inside their parents. -/
structure Tree.SpansInside (tree : Tree) : Prop where
  /-- A node does not stop before it starts. -/
  start_le_stop {node : Node} : node ∈ tree.nodes.toList → node.span.start ≤ node.span.stop
  /-- A child lies inside its parent. -/
  child_inside {node child : Node} : node ∈ tree.nodes.toList → child ∈ tree.children node →
    node.span.start ≤ child.span.start ∧ child.span.stop ≤ node.span.stop

/-- A child of a node on one line is on the same line. -/
theorem Tree.SpansInside.liesOn {tree : Tree} (h : tree.SpansInside) {node child : Tree.Node}
    {line : Nat} (hnode : node ∈ tree.nodes.toList) (hmem : child ∈ tree.nodes.toList)
    (hchild : child ∈ tree.children node) (hline : node.span.liesOn line = true) :
    child.span.liesOn line = true := by
  obtain ⟨hstart, hstop⟩ := h.child_inside hnode hchild
  have hfirst := Tree.Position.line_le hstart
  have hlast := Tree.Position.line_le hstop
  have hchild := Tree.Position.line_le (h.start_le_stop hmem)
  simp only [Tree.Span.liesOn, Tree.Span.isSingleLine, Bool.and_eq_true,
    decide_eq_true_eq] at hline ⊢
  omega

/-- A node is of one kind only. -/
theorem Tree.Node.is_of_ne {node : Tree.Node} {kind another : Tree.Kind} (h : node.is kind = true)
    (hne : kind ≠ another) : node.is another = false := by
  simp only [is, decide_eq_true_eq, decide_eq_false_iff_not] at h ⊢
  rw [h]
  exact hne

namespace ExtractVariable

/-- One step into parentheses. -/
def Inside (tree : Tree) (outer inner : Tree.Node) : Prop :=
  outer.is .parenthesized = true ∧ inner ∈ tree.children outer

/-- The second node is reached from the first by stepping to a child and then through any number of
parentheses. -/
def Reaches (tree : Tree) (upper lower : Tree.Node) : Prop :=
  ∃ child ∈ tree.children upper, Relation.ReflTransGen (Inside tree) child lower

/-- Comments apart, an operator has two children and parentheses have one. -/
structure Regular (tree : Tree) : Prop where
  operator {node : Tree.Node} : node ∈ tree.nodes.toList → node.is .binaryOperator = true →
    ((tree.children node).filter fun child => !child.is .comment).length = 2
  parentheses {node : Tree.Node} : node ∈ tree.nodes.toList → node.is .parenthesized = true →
    ((tree.children node).filter fun child => !child.is .comment).length = 1

/-- The second of two operators of a line is reached from the first. -/
def Joined (context : LineContext) (upper lower : Tree.Node) : Prop :=
  upper ∈ operators context ∧ lower ∈ operators context ∧ Reaches context.tree upper lower

/-- An operator is reached from no other operator of the line. -/
def IsMaximal (context : LineContext) (operator : Tree.Node) : Prop :=
  ∀ upper, ¬ Joined context upper operator

open Classical in
/-- The operators of a line that hang on one of them: those to which steps lead from it. -/
noncomputable def cluster (context : LineContext) (top : Tree.Node) : List Tree.Node :=
  (operators context).filter fun operator => Relation.ReflTransGen (Joined context) top operator

/-- The sides of an operator that are operators when parentheses are taken off. -/
def inner (tree : Tree) (node : Tree.Node) : List Tree.Node :=
  ((tree.children node).map (unwrap tree)).filter (Tree.Node.is · .binaryOperator)

/-- Operators of a tree, listed once each and together with all operators among their sides. -/
structure Closed (tree : Tree) (items : List Tree.Node) : Prop where
  nodup : items.Nodup
  operator {node : Tree.Node} : node ∈ items →
    node ∈ tree.nodes.toList ∧ node.is .binaryOperator = true
  side {upper lower : Tree.Node} : upper ∈ items → lower ∈ inner tree upper → lower ∈ items

section Walk

variable {tree : Tree} {node upper lower : Tree.Node}

/-- What children take over from their parents goes down through parentheses. -/
theorem Reaches.induction (h : Reaches tree upper lower) {P : Tree.Node → Prop}
    (hchild : ∀ child ∈ tree.children upper, P child)
    (hstep : ∀ outer, P outer → ∀ child ∈ tree.children outer, P child) : P lower := by
  obtain ⟨child, hmem, hwalk⟩ := h
  induction hwalk with
  | refl => exact hchild child hmem
  | tail _ hinside ih => exact hstep _ ih _ hinside.2

/-- What is reached stands in the tree, behind the node that it is reached from. -/
theorem Reaches.id_lt (hlinked : tree.Linked) (hupper : upper ∈ tree.nodes.toList)
    (h : Reaches tree upper lower) : lower ∈ tree.nodes.toList ∧ upper.id < lower.id := by
  apply h.induction (P := fun found => found ∈ tree.nodes.toList ∧ upper.id < found.id)
  · intro child hchild
    exact ⟨((hlinked.mem_children hupper).1 hchild).1,
      hlinked.id_lt_of_mem_children hupper hchild⟩
  · rintro outer ⟨houter, hlt⟩ child hchild
    exact ⟨((hlinked.mem_children houter).1 hchild).1,
      Nat.lt_trans hlt (hlinked.id_lt_of_mem_children houter hchild)⟩

/-- A step into parentheses goes to a node of the tree. -/
theorem mem_of_inside (hlinked : tree.Linked) (hnode : node ∈ tree.nodes.toList)
    (h : Relation.ReflTransGen (Inside tree) node lower) : lower ∈ tree.nodes.toList := by
  induction h with
  | refl => exact hnode
  | tail _ hinside ih => exact ((hlinked.mem_children ih).1 hinside.2).1

/-- A node is reached from one node without parentheses only, and by one of its children. -/
theorem eq_of_inside (hlinked : tree.Linked) {upper' child child' : Tree.Node}
    (hupper : upper ∈ tree.nodes.toList) (hupper' : upper' ∈ tree.nodes.toList)
    (hplain : upper.is .parenthesized = false) (hplain' : upper'.is .parenthesized = false)
    (hchild : child ∈ tree.children upper) (hchild' : child' ∈ tree.children upper')
    (h : Relation.ReflTransGen (Inside tree) child lower)
    (h' : Relation.ReflTransGen (Inside tree) child' lower) : upper = upper' ∧ child = child' := by
  have hmem := ((hlinked.mem_children hupper).1 hchild).1
  have hmem' := ((hlinked.mem_children hupper').1 hchild').1
  -- both walks come to the node from its parent, which is in parentheses or where the walk started
  induction h with
  | refl =>
    rcases Relation.ReflTransGen.cases_tail h' with rfl | ⟨outer, hwalk, hinside⟩
    · exact ⟨hlinked.parent_unique hupper hupper' hchild hchild', rfl⟩
    · obtain rfl := hlinked.parent_unique hupper (mem_of_inside hlinked hmem' hwalk) hchild
        hinside.2
      exact absurd hinside.1 (ne_true_of_eq_false hplain)
  | @tail outer lower hwalk hinside ih =>
    have houter := mem_of_inside hlinked hmem hwalk
    rcases Relation.ReflTransGen.cases_tail h' with rfl | ⟨outer', hwalk', hinside'⟩
    · obtain rfl := hlinked.parent_unique hupper' houter hchild' hinside.2
      exact absurd hinside.1 (ne_true_of_eq_false hplain')
    · obtain rfl := hlinked.parent_unique houter (mem_of_inside hlinked hmem' hwalk') hinside.2
        hinside'.2
      exact ih hwalk'

/-- Taking parentheses off steps into them. -/
theorem inside_unwrap (tree : Tree) (node : Tree.Node) :
    Relation.ReflTransGen (Inside tree) node (unwrap tree node) := by
  have hstep : Unwraps tree ≤ Inside tree := fun _ _ hunwraps =>
    ⟨hunwraps.1, hunwraps.mem_children⟩
  exact Relation.ReflTransGen.mono hstep _ _ (reaches_unwrap tree node)

/-- In parentheses with one child, comments apart, there is nothing else to step to. -/
theorem Regular.unwraps (hregular : Regular tree) {outer inner : Tree.Node}
    (houter : outer ∈ tree.nodes.toList) (h : Inside tree outer inner)
    (hinner : inner.is .comment = false) : Unwraps tree outer inner := by
  obtain ⟨only, honly⟩ := List.length_eq_one_iff.1 (hregular.parentheses houter h.1)
  have hmem : inner ∈ (tree.children outer).filter fun child => !child.is .comment := by
    rw [List.mem_filter, hinner]
    exact ⟨h.2, rfl⟩
  refine ⟨h.1, ?_⟩
  rw [← List.head?_filter, honly]
  rw [honly, List.mem_singleton] at hmem
  rw [hmem, List.head?_cons]

/-- An operator that is reached through parentheses is what is left when they are taken off. -/
theorem Regular.unwrap_eq (hregular : Regular tree) (hlinked : tree.Linked)
    (hnode : node ∈ tree.nodes.toList) (h : Relation.ReflTransGen (Inside tree) node lower)
    (hlower : lower.is .binaryOperator = true) : unwrap tree node = lower := by
  have hend (next : Tree.Node) : ¬ Unwraps tree lower next :=
    not_unwraps (Tree.Node.is_of_ne hlower (by decide))
  refine unwrap_eq_of_reaches hlinked hnode ?_ hend
  induction h using Relation.ReflTransGen.head_induction_on with
  | refl => exact .refl
  | @head outer inner hinside hwalk ih =>
    have hcomment : inner.is .comment = false := by
      rcases Relation.ReflTransGen.cases_head hwalk with rfl | ⟨next, hnext, -⟩
      · exact Tree.Node.is_of_ne hlower (by decide)
      · exact Tree.Node.is_of_ne hnext.1 (by decide)
    exact .head (hregular.unwraps hnode hinside hcomment)
      (ih ((hlinked.mem_children hnode).1 hinside.2).1)

/-- The operators among the sides of a node are those that are reached from it. -/
theorem mem_inner_iff (hregular : Regular tree) (hlinked : tree.Linked)
    (hnode : node ∈ tree.nodes.toList) :
    lower ∈ inner tree node ↔ lower.is .binaryOperator = true ∧ Reaches tree node lower := by
  rw [inner, List.mem_filter, List.mem_map]
  constructor
  · rintro ⟨⟨child, hchild, rfl⟩, hlower⟩
    exact ⟨hlower, child, hchild, inside_unwrap tree child⟩
  · rintro ⟨hlower, child, hchild, hwalk⟩
    have hmem := ((hlinked.mem_children hnode).1 hchild).1
    exact ⟨⟨child, hchild, hregular.unwrap_eq hlinked hmem hwalk hlower⟩, hlower⟩

/-- The operators among the sides of an operator are different nodes. -/
theorem nodup_inner (hlinked : tree.Linked) (hnode : node ∈ tree.nodes.toList)
    (hplain : node.is .parenthesized = false) : (inner tree node).Nodup := by
  refine ((hlinked.nodup_children hnode).map_on ?_).filter _
  intro child hchild child' hchild' heq
  have hwalk' := inside_unwrap tree child'
  rw [← heq] at hwalk'
  exact (eq_of_inside hlinked hnode hnode hplain hplain hchild hchild' (inside_unwrap tree child)
    hwalk').2

/-- A side of an operator that is no comment is an operand, or an operator when parentheses are
taken off. -/
theorem length_operands_add_length_inner (hregular : Regular tree)
    (hnode : node ∈ tree.nodes.toList) (hoperator : node.is .binaryOperator = true) :
    (operands tree node).length + (inner tree node).length = 2 := by
  have hsplit := List.length_eq_countP_add_countP (isOperand tree)
    (l := (tree.children node).filter fun child => !child.is .comment)
  rw [hregular.operator hnode hoperator, List.countP_filter, List.countP_filter] at hsplit
  rw [operands, inner, List.filter_map, List.length_map, ← List.countP_eq_length_filter,
    ← List.countP_eq_length_filter, hsplit]
  congr 1
  · apply List.countP_congr
    intro child _
    simp [isOperand, unwrap_is_comment]
  · apply List.countP_congr
    intro child _
    rw [← unwrap_is_comment tree child]
    cases hkind : (unwrap tree child).kind <;> simp [isOperand, Tree.Node.is, hkind]

end Walk

namespace Closed

variable {tree : Tree} {items : List Tree.Node}

/-- The listed operators that are a side of another one are those that are reached from one. -/
theorem mem_flatMap_inner_iff (h : Closed tree items) (hlinked : tree.Linked)
    (hregular : Regular tree) (lower : Tree.Node) :
    lower ∈ items.flatMap (inner tree) ↔
      lower ∈ items ∧ ¬ ∀ upper ∈ items, ¬ Reaches tree upper lower := by
  simp only [List.mem_flatMap, not_forall, not_not, exists_prop]
  constructor
  · rintro ⟨upper, hupper, hinner⟩
    have hreach := (mem_inner_iff hregular hlinked (h.operator hupper).1).1 hinner
    exact ⟨h.side hupper hinner, upper, hupper, hreach.2⟩
  · rintro ⟨hlower, upper, hupper, hreach⟩
    exact ⟨upper, hupper, (mem_inner_iff hregular hlinked (h.operator hupper).1).2
      ⟨(h.operator hlower).2, hreach⟩⟩

/-- No operator is a side of two others. -/
theorem nodup_flatMap_inner (h : Closed tree items) (hlinked : tree.Linked)
    (hregular : Regular tree) : (items.flatMap (inner tree)).Nodup := by
  have hplain {node : Tree.Node} (hnode : node ∈ items) : node.is .parenthesized = false :=
    Tree.Node.is_of_ne (h.operator hnode).2 (by decide)
  rw [List.nodup_flatMap]
  refine ⟨?_, h.nodup.imp_of_mem ?_⟩
  · intro operator hoperator
    exact nodup_inner hlinked (h.operator hoperator).1 (hplain hoperator)
  · intro first second hfirst hsecond hne lower hlower hlower'
    have hmem := (h.operator hfirst).1
    have hmem' := (h.operator hsecond).1
    obtain ⟨-, child, hchild, hwalk⟩ := (mem_inner_iff hregular hlinked hmem).1 hlower
    obtain ⟨-, child', hchild', hwalk'⟩ := (mem_inner_iff hregular hlinked hmem').1 hlower'
    exact hne (eq_of_inside hlinked hmem hmem' (hplain hfirst) (hplain hsecond) hchild hchild' hwalk
      hwalk').1

/-- Where each item has two parts together, the parts are twice as many as the items. -/
theorem length_flatMap_add {part rest : Tree.Node → List Tree.Node}
    (h : ∀ item ∈ items, (part item).length + (rest item).length = 2) :
    (items.flatMap part).length + (items.flatMap rest).length = 2 * items.length := by
  induction items with
  | nil => rfl
  | cons item others ih =>
    have hitem := h item List.mem_cons_self
    have hothers := ih fun other hother => h other (List.mem_cons_of_mem _ hother)
    simp only [List.flatMap_cons, List.length_append, List.length_cons]
    omega

open Classical in
/-- The operands of the listed operators are as many as the operators and, once more, as those of
them that are reached from none. -/
theorem length_operands (h : Closed tree items) (hlinked : tree.Linked) (hregular : Regular tree) :
    (items.flatMap (operands tree)).length = items.length +
      items.countP fun lower => decide (∀ upper ∈ items, ¬ Reaches tree upper lower) := by
  have hsides : (items.flatMap (operands tree)).length + (items.flatMap (inner tree)).length =
      2 * items.length := by
    apply length_flatMap_add
    intro operator hoperator
    obtain ⟨hmem, hkind⟩ := h.operator hoperator
    exact length_operands_add_length_inner hregular hmem hkind
  have hinner : (items.flatMap (inner tree)).length =
      items.countP fun lower => decide (¬ ∀ upper ∈ items, ¬ Reaches tree upper lower) := by
    rw [List.countP_eq_length_filter]
    apply List.Perm.length_eq
    rw [List.perm_ext_iff_of_nodup (h.nodup_flatMap_inner hlinked hregular) (h.nodup.filter _)]
    intro lower
    rw [h.mem_flatMap_inner_iff hlinked hregular, List.mem_filter, decide_eq_true_eq]
  have hsplit := List.length_eq_countP_add_countP
    (fun lower => decide (∀ upper ∈ items, ¬ Reaches tree upper lower)) (l := items)
  simp only [decide_eq_true_eq] at hsplit
  omega

end Closed

section Line

variable {context : LineContext} {upper lower top : Tree.Node}

/-- The operators of a line are nodes of the tree. -/
theorem mem_of_mem_operators (h : lower ∈ operators context) :
    lower ∈ context.tree.nodes.toList ∧ lower.is .binaryOperator = true := by
  obtain ⟨hmem, hkind⟩ := List.mem_filter.1 h
  rw [Bool.and_eq_true] at hkind
  exact ⟨(context.tree.subtree_sublist context.anchor).subset hmem, hkind.1⟩

/-- The operators of a line are listed once each. -/
theorem nodup_operators (context : LineContext) : (operators context).Nodup := by
  have hnodes : context.tree.nodes.toList.Nodup :=
    context.tree.pairwise_id.imp fun hlt heq => Nat.ne_of_lt hlt (congrArg Tree.Node.id heq)
  exact (hnodes.sublist (context.tree.subtree_sublist context.anchor)).filter _

/-- An operator that is reached from one of the line is one of the line. -/
theorem mem_operators_of_reaches (hlinked : context.tree.Linked)
    (hspans : context.tree.SpansInside) (hanchor : context.anchor ∈ context.tree.nodes.toList)
    (hupper : upper ∈ operators context) (h : Reaches context.tree upper lower)
    (hlower : lower.is .binaryOperator = true) : lower ∈ operators context := by
  obtain ⟨hmem, hkind⟩ := List.mem_filter.1 hupper
  rw [Bool.and_eq_true] at hkind
  have hbelow (node : Tree.Node) (hnode : node ∈ context.anchorSubtree ∧
      node.span.liesOn context.location.line = true) (child : Tree.Node)
      (hchild : child ∈ context.tree.children node) :
      child ∈ context.anchorSubtree ∧ child.span.liesOn context.location.line = true := by
    have hinTree := (context.tree.subtree_sublist context.anchor).subset hnode.1
    exact ⟨hlinked.mem_subtree_of_mem_children hanchor hnode.1 hchild,
      hspans.liesOn hinTree ((hlinked.mem_children hinTree).1 hchild).1 hchild hnode.2⟩
  obtain ⟨hsubtree, hline⟩ := h.induction (hbelow upper ⟨hmem, hkind.2⟩) hbelow
  rw [operators, List.mem_filter, hlower, hline]
  exact ⟨hsubtree, rfl⟩

theorem mem_cluster_iff : lower ∈ cluster context top ↔
    lower ∈ operators context ∧ Relation.ReflTransGen (Joined context) top lower := by
  simp only [cluster, List.mem_filter, decide_eq_true_eq]

/-- Steps from operator to operator do not go back in the tree. -/
theorem id_le_of_joined (hlinked : context.tree.Linked)
    (h : Relation.ReflTransGen (Joined context) top lower) : top.id ≤ lower.id := by
  induction h with
  | refl => exact Nat.le_refl _
  | tail _ hstep ih =>
    have hlt := (hstep.2.2.id_lt hlinked (mem_of_mem_operators hstep.1).1).2
    exact Nat.le_trans ih (Nat.le_of_lt hlt)

/-- Of the operators that hang on one of them only that one is reached from none. -/
theorem not_reaches_iff_eq (hlinked : context.tree.Linked) (hlower : lower ∈ cluster context top) :
    (∀ upper ∈ cluster context top, ¬ Reaches context.tree upper lower) ↔ lower = top := by
  constructor
  · intro hnone
    obtain ⟨-, hsteps⟩ := mem_cluster_iff.1 hlower
    rcases Relation.ReflTransGen.cases_tail hsteps with heq | ⟨upper, hreach, hjoined⟩
    · exact heq
    · exact absurd hjoined.2.2 (hnone upper (mem_cluster_iff.2 ⟨hjoined.1, hreach⟩))
  · rintro rfl upper hupper hreach
    obtain ⟨hmem, hbelow⟩ := mem_cluster_iff.1 hupper
    have hle := id_le_of_joined hlinked hbelow
    have hlt := (hreach.id_lt hlinked (mem_of_mem_operators hmem).1).2
    omega

section Counts

variable (hlinked : context.tree.Linked) (hspans : context.tree.SpansInside)
  (hregular : Regular context.tree) (hanchor : context.anchor ∈ context.tree.nodes.toList)

include hlinked hspans hregular hanchor

/-- The operators among the sides of an operator of the line are joined to it. -/
theorem joined_of_mem_inner (hupper : upper ∈ operators context)
    (h : lower ∈ inner context.tree upper) : Joined context upper lower := by
  obtain ⟨hlower, hreach⟩ := (mem_inner_iff hregular hlinked (mem_of_mem_operators hupper).1).1 h
  exact ⟨hupper, mem_operators_of_reaches hlinked hspans hanchor hupper hreach hlower, hreach⟩

/-- With an operator its sides are on the line. -/
theorem closed_operators : Closed context.tree (operators context) where
  nodup := nodup_operators context
  operator := mem_of_mem_operators
  side hupper hinner := (joined_of_mem_inner hlinked hspans hregular hanchor hupper hinner).2.1

open Classical in
/-- The operands of a line are as many as its operators and its maximal operators together. -/
theorem measure_eq_of_linked :
    measure context = (operators context).length +
      (operators context).countP fun operator => decide (IsMaximal context operator) := by
  rw [measure, (closed_operators hlinked hspans hregular hanchor).length_operands hlinked hregular]
  congr 1
  apply List.countP_congr
  intro operator hoperator
  simp only [decide_eq_true_eq, IsMaximal, Joined, hoperator, true_and, not_and]

/-- With an operator its sides hang on the same one. -/
theorem closed_cluster (top : Tree.Node) : Closed context.tree (cluster context top) where
  nodup := (nodup_operators context).filter _
  operator hnode := mem_of_mem_operators (mem_cluster_iff.1 hnode).1
  side hupper hinner := by
    obtain ⟨hmem, hreach⟩ := mem_cluster_iff.1 hupper
    have hjoined := joined_of_mem_inner hlinked hspans hregular hanchor hmem hinner
    exact mem_cluster_iff.2 ⟨hjoined.2.1, hreach.tail hjoined⟩

/-- Operators that hang on one of them have one operand more than there are operators. -/
theorem length_operands_cluster (htop : top ∈ operators context) :
    ((cluster context top).flatMap (operands context.tree)).length =
      (cluster context top).length + 1 := by
  have hclosed := closed_cluster hlinked hspans hregular hanchor top
  have hone : (cluster context top).count top = 1 :=
    List.count_eq_one_of_mem hclosed.nodup (mem_cluster_iff.2 ⟨htop, .refl⟩)
  rw [hclosed.length_operands hlinked hregular, ← hone]
  congr 1
  apply List.countP_congr
  intro lower hlower
  simp only [decide_eq_true_eq, not_reaches_iff_eq hlinked hlower, beq_iff_eq]

end Counts

end Line

open Classical in
/-- In a tree with nested spans, where operators have two children and parentheses one, comments
apart, the measure of a line is the number of its operators and, once more, the number of those that
no other operator of the line reaches through a child and parentheses. Operators that hang together
below one of them have one operand more than there are operators. -/
theorem measure_eq_operators_add_maximal (script : Tree.Script) (hspans : script.build.SpansInside)
    (hregular : Regular script.build) {context : LineContext} (htree : context.tree = script.build)
    (hanchor : context.tree.locate context.location.line = .ok context.anchor) :
    measure context = (operators context).length +
        (operators context).countP (fun operator => decide (IsMaximal context operator)) ∧
      ∀ top ∈ operators context,
        ((cluster context top).flatMap (operands context.tree)).length =
          (cluster context top).length + 1 := by
  have hlinked : context.tree.Linked := by
    rw [htree, script.build_eq_ofRose]
    exact Tree.linked_ofRose script.rose
  rw [← htree] at hspans hregular
  have hmem : context.anchor ∈ context.tree.nodes.toList := by
    have hfirst := (context.tree.locate_eq_ok_iff _ _).1 hanchor
    exact ((context.tree.mem_startingOn_iff _ _).1 (List.mem_of_head? hfirst)).1
  refine ⟨measure_eq_of_linked hlinked hspans hregular hmem, ?_⟩
  intro top htop
  exact length_operands_cluster hlinked hspans hregular hmem htop

namespace Sample

/-- `x = (a + b) * c`. -/
def product : Tree.Script where
  label := "module"
  span := ⟨⟨1, 0⟩, ⟨2, 0⟩⟩
  steps :=
    [.start .assignment "assignment" ⟨⟨1, 0⟩, ⟨1, 15⟩⟩,
      .leaf .other "identifier" ⟨⟨1, 0⟩, ⟨1, 1⟩⟩,
      .start .binaryOperator "binary_operator" ⟨⟨1, 4⟩, ⟨1, 15⟩⟩,
      .start .parenthesized "parenthesized_expression" ⟨⟨1, 4⟩, ⟨1, 11⟩⟩,
      .start .binaryOperator "binary_operator" ⟨⟨1, 5⟩, ⟨1, 10⟩⟩,
      .leaf .other "identifier" ⟨⟨1, 5⟩, ⟨1, 6⟩⟩,
      .leaf .other "identifier" ⟨⟨1, 9⟩, ⟨1, 10⟩⟩,
      .finish, .finish,
      .leaf .other "identifier" ⟨⟨1, 14⟩, ⟨1, 15⟩⟩]

/-- The spans of the sample are nested. -/
theorem spansInside_product : product.build.SpansInside where
  start_le_stop {node} hnode := by
    have hall : ∀ node ∈ product.build.nodes.toList, node.span.start ≤ node.span.stop := by decide
    exact hall node hnode
  child_inside {node child} hnode hchild := by
    have hall : ∀ node ∈ product.build.nodes.toList, ∀ child ∈ product.build.children node,
        node.span.start ≤ child.span.start ∧ child.span.stop ≤ node.span.stop := by decide
    exact hall node hnode child hchild

/-- The operators of the sample have two sides, and the parentheses hold one expression. -/
theorem regular_product : Regular product.build where
  operator {node} hnode hkind := by
    have hall : ∀ node ∈ product.build.nodes.toList, node.is .binaryOperator = true →
        ((product.build.children node).filter fun child => !child.is .comment).length = 2 := by
      decide
    exact hall node hnode hkind
  parentheses {node} hnode hkind := by
    have hall : ∀ node ∈ product.build.nodes.toList, node.is .parenthesized = true →
        ((product.build.children node).filter fun child => !child.is .comment).length = 1 := by
      decide
    exact hall node hnode hkind

/-- The line of the sample, whose first node is the assignment. -/
def line : LineContext where
  location := ⟨⟨"a.py"⟩, 1, "x = (a + b) * c\n"⟩
  anchor := ⟨1, .assignment, "assignment", ⟨⟨1, 0⟩, ⟨1, 15⟩⟩, some 0, [2, 3], 9, none⟩
  tree := product.build

end Sample

open Classical in
/-- The sample has two operators, one of which is maximal, and three operands. -/
theorem measure_eq_operators_add_maximal_sample :
    Sample.product.build.SpansInside ∧ Regular Sample.product.build ∧
      Sample.line.tree.locate Sample.line.location.line = .ok Sample.line.anchor ∧
      (operators Sample.line).length = 2 ∧ measure Sample.line = 3 ∧
      measure Sample.line = (operators Sample.line).length +
        (operators Sample.line).countP (fun operator => decide (IsMaximal Sample.line operator)) ∧
      ∀ top ∈ operators Sample.line,
        ((cluster Sample.line top).flatMap (operands Sample.line.tree)).length =
          (cluster Sample.line top).length + 1 := by
  have hanchor : Sample.line.tree.locate Sample.line.location.line = .ok Sample.line.anchor := rfl
  refine ⟨Sample.spansInside_product, Sample.regular_product, hanchor, by decide, by decide, ?_⟩
  exact measure_eq_operators_add_maximal Sample.product Sample.spansInside_product
    Sample.regular_product rfl hanchor

end ExtractVariable

end LineCoach
