import Mathlib.Data.List.TakeWhile
import LineCoach.Proofs.Tree.Children
import LineCoach.Proofs.Tree.Spans
import LineCoach.Tree.Builder

/-!
# The nodes of a line

The queries about a line are told here without an index and without a walk: `startingOn` lists all
nodes other than the root that start on the line. The first of them is what `locate` finds. The
walk of `sameLineNodes` begins there, and when nodes start in the order in which they stand, those
of one line stand together behind the first, so the walk misses none of them; it ends before the
first that goes on to another line.
-/

namespace LineCoach.Tree

/-- A node other than the root starts on `line`. -/
def StartsOn (tree : Tree) (line : Nat) (node : Node) : Prop :=
  node ∈ tree.nodes.toList ∧ 0 < node.id ∧ node.startLine = line

/-- The nodes other than the root that start on `line`, in order. -/
def startingOn (tree : Tree) (line : Nat) : List Node :=
  (tree.nodes.toList.drop 1).filter fun node => node.startLine = line

/-- The nodes behind a place are those with a greater one. -/
theorem mem_drop_iff (tree : Tree) (place : Nat) (node : Node) :
    node ∈ tree.nodes.toList.drop place ↔ node ∈ tree.nodes.toList ∧ place ≤ node.id := by
  constructor
  · intro hmem
    obtain ⟨offset, hoffset⟩ := List.getElem?_of_mem hmem
    rw [List.getElem?_drop, Array.getElem?_toList] at hoffset
    rw [tree.placed _ node hoffset]
    exact ⟨List.mem_of_mem_drop hmem, Nat.le_add_right _ _⟩
  · rintro ⟨hmem, hle⟩
    have hfound := tree.get?_id hmem
    rw [get?, ← Array.getElem?_toList, ← Nat.add_sub_of_le hle, ← List.getElem?_drop] at hfound
    exact List.mem_of_getElem? hfound

theorem mem_startingOn_iff (tree : Tree) (line : Nat) (node : Node) :
    node ∈ tree.startingOn line ↔ tree.StartsOn line node := by
  rw [startingOn, List.mem_filter, mem_drop_iff, decide_eq_true_eq, and_assoc]
  rfl

/-- The search finds the first of the nodes that start on a line. -/
theorem locate_eq_ok_iff (tree : Tree) (line : Nat) (anchor : Node) :
    tree.locate line = .ok anchor ↔ (tree.startingOn line).head? = some anchor := by
  rw [locate_eq, startingOn, List.head?_filter, ← firstOn?]
  cases tree.firstOn? line with
  | none => simp
  | some node => simp

/-- The search fails when no node starts on the line. -/
theorem locate_eq_error_iff (tree : Tree) (line : Nat) :
    tree.locate line = .error ⟨line⟩ ↔ tree.startingOn line = [] := by
  rw [locate_eq, ← List.head?_eq_none_iff, startingOn, List.head?_filter, ← firstOn?]
  cases tree.firstOn? line with
  | none => simp
  | some node => simp

/-- The first node of a line is the one with the least place. -/
theorem head?_startingOn_iff (tree : Tree) (line : Nat) (anchor : Node) :
    (tree.startingOn line).head? = some anchor ↔
      tree.StartsOn line anchor ∧ ∀ other, tree.StartsOn line other → anchor.id ≤ other.id := by
  simp only [← mem_startingOn_iff]
  have hordered : (tree.startingOn line).Pairwise fun first second => first.id < second.id :=
    (tree.pairwise_id.drop).filter _
  cases hnodes : tree.startingOn line with
  | nil => simp
  | cons first rest =>
    rw [hnodes, List.pairwise_cons] at hordered
    rw [List.head?_cons, Option.some.injEq]
    constructor
    · rintro rfl
      refine ⟨List.mem_cons_self, ?_⟩
      intro other hother
      rcases List.mem_cons.1 hother with rfl | hrest
      · exact Nat.le_refl _
      · exact Nat.le_of_lt (hordered.1 other hrest)
    · rintro ⟨hmem, hleast⟩
      rcases List.mem_cons.1 hmem with rfl | hrest
      · rfl
      · have hlt := hordered.1 anchor hrest
        have hle := hleast first List.mem_cons_self
        omega

/-- Where lines do not go back, the nodes on the first line stand together at the start. -/
theorem filter_startLine_eq_takeWhile {nodes : List Node} {line : Nat}
    (hordered : nodes.Pairwise fun first second => first.startLine ≤ second.startLine)
    (hle : ∀ node ∈ nodes, line ≤ node.startLine) :
    nodes.filter (fun node => node.startLine = line) =
      nodes.takeWhile (fun node => node.startLine = line) := by
  induction nodes with
  | nil => rfl
  | cons node rest ih =>
    rw [List.pairwise_cons] at hordered
    by_cases hline : node.startLine = line
    · have hrest := ih hordered.2 fun other hother => hle other (List.mem_cons_of_mem _ hother)
      simp [hline, hrest]
    · -- all that follows is behind a line that is passed already
      have hnone : rest.filter (fun other => other.startLine = line) = [] := by
        rw [List.filter_eq_nil_iff]
        intro other hother
        have hpassed := hordered.1 other hother
        have hnode := hle node List.mem_cons_self
        simp only [decide_eq_true_eq]
        omega
      simp [hline, hnone]

/-- The nodes of a line are the first of them and those that stand behind it, as long as they start
on the line. -/
theorem startingOn_eq_cons {tree : Tree} {line : Nat} {anchor : Node}
    (hordered : tree.nodes.toList.Pairwise fun first second =>
      first.span.start ≤ second.span.start)
    (h : (tree.startingOn line).head? = some anchor) :
    tree.startingOn line = anchor :: (tree.nodes.toList.drop (anchor.id + 1)).takeWhile
      fun node => node.startLine = line := by
  rw [startingOn, List.head?_filter, List.find?_eq_some_iff_append] at h
  obtain ⟨hline, before, after, hsplit, hbefore⟩ := h
  have hplace : anchor.id = 1 + before.length := by
    refine tree.placed _ anchor ?_
    rw [← Array.getElem?_toList, ← List.getElem?_drop, hsplit]
    simp
  have hafter : tree.nodes.toList.drop (anchor.id + 1) = after := by
    rw [hplace, Nat.add_assoc, ← List.drop_drop, hsplit]
    simp
  have hsorted := hordered.drop (i := 1)
  rw [hsplit, List.pairwise_append, List.pairwise_cons] at hsorted
  rw [decide_eq_true_eq] at hline
  rw [startingOn, hafter, hsplit, List.filter_append,
    List.filter_cons_of_pos (by simpa using hline),
    List.filter_eq_nil_iff.2 (by simpa using hbefore), List.nil_append,
    filter_startLine_eq_takeWhile]
  · exact hsorted.2.1.2.imp Position.line_le
  · intro node hnode
    rw [← hline]
    exact Position.line_le (hsorted.2.1.1 node hnode)

/-- Where nodes start in order, none that starts on a line starts before the first. -/
theorem start_le_of_startsOn {tree : Tree} {line : Nat} {anchor other : Node}
    (hordered : tree.nodes.toList.Pairwise fun first second =>
      first.span.start ≤ second.span.start)
    (hlocated : tree.locate line = .ok anchor) (hother : tree.StartsOn line other) :
    anchor.span.start ≤ other.span.start := by
  rw [locate_eq_ok_iff] at hlocated
  rw [← mem_startingOn_iff] at hother
  have hline : (tree.startingOn line).Pairwise fun first second =>
      first.span.start ≤ second.span.start := hordered.drop.filter _
  cases hnodes : tree.startingOn line with
  | nil =>
    rw [hnodes] at hother
    cases hother
  | cons first rest =>
    rw [hnodes] at hlocated hother hline
    cases hlocated
    rcases List.mem_cons.1 hother with rfl | hrest
    · exact le_rfl
    · exact (List.pairwise_cons.1 hline).1 other hrest

/-- An anchor that goes on to another line is alone. -/
theorem sameLineNodes_of_multiLine (tree : Tree) {anchor : Node}
    (h : anchor.span.isSingleLine = false) : tree.sameLineNodes anchor = [anchor] := by
  rw [sameLineNodes, List.cons.injEq, List.takeWhile_eq_nil_iff]
  simp [Span.sharesLineWith, h]

/-- From an anchor on one line the walk takes the nodes of the line up to the first that goes on to
another line. -/
theorem sameLineNodes_of_singleLine {tree : Tree} {line : Nat} {anchor : Node}
    (hordered : tree.nodes.toList.Pairwise fun first second =>
      first.span.start ≤ second.span.start)
    (hfirst : (tree.startingOn line).head? = some anchor)
    (h : anchor.span.isSingleLine = true) :
    tree.sameLineNodes anchor =
      (tree.startingOn line).takeWhile fun node => node.span.isSingleLine := by
  have hline : anchor.startLine = line := ((tree.head?_startingOn_iff line anchor).1 hfirst).1.2.2
  have hshares : (fun node : Node => anchor.span.sharesLineWith node.span) =
      fun node => node.span.isSingleLine && decide (node.startLine = line) := by
    funext node
    rw [Span.sharesLineWith, h, Bool.true_and, ← hline]
    exact congrArg _ (decide_eq_decide.2 eq_comm)
  rw [startingOn_eq_cons hordered hfirst, List.takeWhile_cons, if_pos h, List.takeWhile_takeWhile,
    sameLineNodes, hshares]
  simp only [Bool.decide_and, Bool.decide_eq_true, decide_eq_true_eq]

/-- In a tree whose nodes start in order, the search for a line fails if no node below the root
starts there, and finds the one with the least place otherwise. The nodes that share the line with
it are itself alone if it goes on to another line, and otherwise all nodes that start on the line up
to the first that goes on to another; so they are all nodes of the line if none does. -/
theorem line_queries (tree : Tree)
    (hordered : tree.nodes.toList.Pairwise fun first second =>
      first.span.start ≤ second.span.start) (line : Nat) :
    (tree.locate line = .error ⟨line⟩ ↔ ∀ node, ¬ tree.StartsOn line node) ∧
      ∀ anchor,
        (tree.locate line = .ok anchor ↔
          tree.StartsOn line anchor ∧
            ∀ other, tree.StartsOn line other → anchor.id ≤ other.id) ∧
        (tree.locate line = .ok anchor →
          (anchor.span.isSingleLine = false → tree.sameLineNodes anchor = [anchor]) ∧
          (anchor.span.isSingleLine = true → tree.sameLineNodes anchor =
            (tree.startingOn line).takeWhile fun node => node.span.isSingleLine) ∧
          ((∀ node, tree.StartsOn line node → node.span.isSingleLine = true) →
            tree.sameLineNodes anchor = tree.startingOn line)) := by
  refine ⟨?_, ?_⟩
  · simp only [locate_eq_error_iff, List.eq_nil_iff_forall_not_mem, mem_startingOn_iff]
  · intro anchor
    rw [locate_eq_ok_iff]
    refine ⟨tree.head?_startingOn_iff line anchor, ?_⟩
    intro hfirst
    have hwalk := sameLineNodes_of_singleLine hordered hfirst
    refine ⟨tree.sameLineNodes_of_multiLine, hwalk, ?_⟩
    intro hsingle
    have hanchor := ((tree.head?_startingOn_iff line anchor).1 hfirst).1
    rw [hwalk (hsingle anchor hanchor), List.takeWhile_eq_self_iff]
    intro node hnode
    exact hsingle node ((tree.mem_startingOn_iff line node).1 hnode)

namespace Sample

/-- `text = """a`, with the end of the text on the next line and a comment behind it. -/
def text : Script where
  label := "module"
  span := ⟨⟨1, 0⟩, ⟨3, 0⟩⟩
  steps :=
    [.leaf .other "identifier" ⟨⟨1, 0⟩, ⟨1, 4⟩⟩,
      .leaf .other "string" ⟨⟨1, 7⟩, ⟨2, 3⟩⟩,
      .leaf .comment "comment" ⟨⟨2, 5⟩, ⟨2, 9⟩⟩]

end Sample

/-- In the sample the walk from the name stops before the text, which goes on to the next line. -/
theorem line_queries_sample :
    (Sample.text.build.nodes.toList.Pairwise fun first second =>
        first.span.start ≤ second.span.start) ∧
      (Sample.text.build.startingOn 1).length = 2 ∧
      ∃ anchor, Sample.text.build.locate 1 = .ok anchor ∧
        Sample.text.build.sameLineNodes anchor =
          (Sample.text.build.startingOn 1).takeWhile fun node => node.span.isSingleLine := by
  have hordered : Sample.text.build.nodes.toList.Pairwise fun first second =>
      first.span.start ≤ second.span.start := by decide
  refine ⟨hordered, by decide, _, rfl, ?_⟩
  exact (((line_queries Sample.text.build hordered 1).2 _).2 rfl).2.1 rfl

end LineCoach.Tree
